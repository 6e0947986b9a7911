import Spotify.Api.Answers
import Spotify.Auth.Fresh

/-!
# Spotify.Api.Requests — what the client sends, and to whom the answers belong

`live` lists the calls that have not been answered, wherever they live; a step adds the call it receives
and no other (`live_step`).  So every data task and every answer belongs to a call that was made, with its
own endpoint (`answers_match`).  A data task is started when the manager hands its call a token, with that
token in its header (`requests_fresh`); a store without tokens therefore starts none
(`silent_when_signed_out`).
-/

namespace Spotify.APIClient

open AuthenticationManager (holders initiator callers lost resumed Current Dated LongLived Effect)

variable {β : Type} {F : Foundation} {s s' : APIClient β} {ls : List (APILabel β)}

/-- The calls that have not been answered. -/
def live (s : APIClient β) : List APICall := holders s.auth ++ s.tasks.collect fun t => some t.call

/-- The endpoint that a label calls. -/
def called : APILabel β → Option Endpoint
  | .call endpoint => some endpoint
  | _ => none

/-! ### Data tasks -/

theorem resumeOne_of_none {k : APICall} {token : String} (hq : F.apiRequest k token = none) :
    resumeOne F s (.token k token) = s := by
  simp only [resumeOne, hq]

theorem resumeOne_of_some {k : APICall} {token : String} {request : URLRequest}
    (hq : F.apiRequest k token = some request) :
    resumeOne F s (.token k token) = { s with tasks := s.tasks.start ⟨k, request⟩ } := by
  simp only [resumeOne, hq]

/-- A data task that resuming starts belongs to a completion called, and carries its token. -/
theorem find?_resume {out : List (Call APICall β)} {id : ℕ} {t : DataTask}
    (h : (s.resume F out).tasks.find? id = some t) : s.tasks.find? id = some t ∨
      (s.tasks.find? id = none ∧
        ∃ token, .token t.call token ∈ out ∧ F.apiRequest t.call token = some t.request) := by
  induction out generalizing s with
  | nil => exact .inl h
  | cons o out ih =>
    -- one completion first, then the others
    have hone : ∀ t', (resumeOne F s o).tasks.find? id = some t' → s.tasks.find? id = some t' ∨
        (s.tasks.find? id = none ∧ ∃ token, o = .token t'.call token ∧
          F.apiRequest t'.call token = some t'.request) := by
      intro t' ht'
      cases o with
      | success c b => exact .inl ht'
      | token k token =>
        cases hq : F.apiRequest k token with
        | none =>
          rw [resumeOne_of_none hq] at ht'
          exact .inl ht'
        | some request =>
          rw [resumeOne_of_some hq, Pool.find?_start] at ht'
          split_ifs at ht' with hid
          · cases ht'
            rw [hid]
            exact .inr ⟨Pool.find?_next, token, rfl, hq⟩
          · exact .inl ht'
    rcases ih (s := resumeOne F s o) h with hold | ⟨hnone, token, hmem, hq⟩
    · rcases hone t hold with hold | ⟨hnone, token, rfl, hq⟩
      · exact .inl hold
      · exact .inr ⟨hnone, token, List.mem_cons_self, hq⟩
    · refine .inr ⟨?_, token, List.mem_cons_of_mem _ hmem, hq⟩
      cases hfind : s.tasks.find? id with
      | none => rfl
      | some t' =>
        -- a task that was there is still there
        cases o with
        | success c b =>
          rw [show (resumeOne F s (.success c b)).tasks = s.tasks from rfl, hfind] at hnone
          cases hnone
        | token k token' =>
          cases hq' : F.apiRequest k token' with
          | none =>
            rw [resumeOne_of_none hq', hfind] at hnone
            cases hnone
          | some request =>
            rw [resumeOne_of_some hq', Pool.find?_start_of_some hfind] at hnone
            cases hnone

theorem mem_resumed {out : List (Call APICall β)} {k : APICall} {token : String}
    (h : .token k token ∈ out) : k ∈ resumed out :=
  List.mem_filterMap.mpr ⟨_, h, rfl⟩

theorem mem_collect_call {k : APICall} :
    k ∈ s.tasks.collect (fun t => some t.call) ↔ ∃ id t, s.tasks.find? id = some t ∧ t.call = k := by
  rw [Pool.mem_collect]
  simp only [Option.some.injEq]

/-- The call that a step of the manager receives is the one made. -/
theorem call_of_mem_callers {l : APILabel β} {la : AuthLabel APICall β} (hla : s.authLabel l = some la)
    {k : APICall} (hk : k ∈ callers [la]) : ∃ e, l = .call e ∧ k = ⟨s.nextCall, e⟩ := by
  cases l with
  | call e =>
    cases hla
    exact ⟨e, rfl, by simpa [callers] using hk⟩
  | auth la' => cases la' <;> cases hla <;> simp [callers] at hk
  | response task o => cases hla

/-- **Calls come from callers.**  A call that is live after a step was live before, or is the one made. -/
theorem live_step {l : APILabel β} (h : s.step F l = some s') {k : APICall} (hk : k ∈ s'.live) :
    k ∈ s.live ∨ ∃ e, l = .call e ∧ k = ⟨s.nextCall, e⟩ := by
  rcases step_inv h with ⟨la, m, out, hla, hl, rfl⟩ | ⟨task, t, o, rfl, ht, rfl⟩
  · have hperm := (AuthenticationManager.step_effect hl).callers_perm
    have hfrom : ∀ c, c ∈ holders m ++ (resumed out ++ lost s.auth la) →
        c ∈ s.live ∨ ∃ e, l = .call e ∧ c = ⟨s.nextCall, e⟩ := by
      intro c hc
      rcases List.mem_append.mp (hperm.mem_iff.mpr hc) with hold | hnew
      · exact .inl (List.mem_append_left _ hold)
      · exact .inr (call_of_mem_callers hla hnew)
    obtain ⟨hauth, -⟩ := resume_spec (F := F) ({ s with
      auth := m, nextCall := s.nextCall + (callers [la]).length } : APIClient β) out
    rcases List.mem_append.mp hk with hk | hk
    · rw [hauth] at hk
      exact hfrom k (List.mem_append_left _ hk)
    · obtain ⟨id, t, ht, rfl⟩ := mem_collect_call.mp hk
      rcases find?_resume ht with hold | ⟨-, token, hmem, -⟩
      · exact .inl (List.mem_append_right _ (mem_collect_call.mpr ⟨id, t, hold, rfl⟩))
      · exact hfrom _ (List.mem_append_right _ (List.mem_append_left _ (mem_resumed hmem)))
  · rcases List.mem_append.mp hk with hk | hk
    · exact .inl (List.mem_append_left _ hk)
    · obtain ⟨id, t', ht', rfl⟩ := mem_collect_call.mp hk
      have hold := (Pool.find?_finish_eq_some.mp ht').2
      exact .inl (List.mem_append_right _ (mem_collect_call.mpr ⟨id, t', hold, rfl⟩))

/-! ### Answers -/

theorem nextCall_step {l : APILabel β} (h : s.step F l = some s') :
    s'.nextCall = s.nextCall + (called l).toList.length := by
  rcases step_inv h with ⟨la, m, out, hla, hl, rfl⟩ | ⟨task, t, o, rfl, ht, rfl⟩
  · obtain ⟨-, -, hn, -⟩ := resume_spec (F := F) ({ s with
      auth := m, nextCall := s.nextCall + (callers [la]).length } : APIClient β) out
    rw [hn]
    cases l with
    | call e => cases hla; rfl
    | auth la' => cases la' <;> cases hla <;> rfl
    | response task o => cases hla
  · rfl

theorem step_response {task : ℕ} {o : Outcome Payload} (h : s.step F (.response task o) = some s') :
    ∃ t, s.tasks.find? task = some t ∧ t.call.endpoint.accepts o = true ∧
      s' = { s with
        tasks := s.tasks.finish task
        answers := s.answers ++ [(t.call.id, t.call.endpoint.handler o)] } := by
  simp only [step] at h
  cases ht : s.tasks.find? task with
  | none => rw [ht] at h; cases h
  | some t =>
    rw [ht] at h
    simp only at h
    split_ifs at h with ha
    cases h
    exact ⟨t, rfl, ha, rfl⟩

/-- Answers come with data tasks only. -/
theorem answers_step {l : APILabel β} (hl : ∀ task o, l ≠ .response task o) (h : s.step F l = some s') :
    s'.answers = s.answers := by
  rcases step_inv h with ⟨la, m, out, hla, hs, rfl⟩ | ⟨task, t, o, rfl, ht, rfl⟩
  · exact (resume_spec (F := F) ({ s with
      auth := m, nextCall := s.nextCall + (callers [la]).length } : APIClient β) out).2.1
  · exact absurd rfl (hl task o)

/-- The call of a data task in flight has not been answered. -/
theorem Ledger.not_answered (hs : Ledger s) {task : ℕ} {t : DataTask}
    (ht : s.tasks.find? task = some t) : t.call.id ∉ s.answered := by
  intro hin
  have hload : t.call.id ∈ s.loading := (Pool.mem_collect _).mpr ⟨task, t, ht, rfl⟩
  have hnd := hs.nodup
  unfold places at hnd
  exact (List.nodup_append.mp hnd).2.2 _ (List.mem_append_right _ hload) _ hin rfl

/-- The calls made so far tell the endpoint of every live call and of every answer. -/
structure Matches (s : APIClient β) (made : List Endpoint) : Prop where
  nextCall : s.nextCall = made.length
  live : ∀ k ∈ s.live, made[k.id]? = some k.endpoint
  answers : ∀ c r, (c, r) ∈ s.answers → ∃ e o, made[c]? = some e ∧ e.accepts o = true ∧ r = e.handler o

theorem getElem?_append_of_some {α : Type} {xs : List α} {i : ℕ} {x : α} (h : xs[i]? = some x)
    (ys : List α) : (xs ++ ys)[i]? = some x := by
  obtain ⟨hlt, -⟩ := List.getElem?_eq_some_iff.mp h
  rw [List.getElem?_append_left hlt, h]

theorem Matches.step {made : List Endpoint} (hs : Matches s made) {l : APILabel β}
    (h : s.step F l = some s') : Matches s' (made ++ (called l).toList) where
  nextCall := by rw [nextCall_step h, hs.nextCall, List.length_append]
  live := by
    intro k hk
    rcases live_step h hk with hold | ⟨e, rfl, rfl⟩
    · exact getElem?_append_of_some (hs.live k hold) _
    · rw [hs.nextCall]
      exact List.getElem?_concat_length
  answers := by
    intro c r hr
    have hold : (c, r) ∈ s.answers → ∃ e o, (made ++ (called l).toList)[c]? = some e ∧
        e.accepts o = true ∧ r = e.handler o := by
      intro hr
      obtain ⟨e, o, he, ho, hr⟩ := hs.answers c r hr
      exact ⟨e, o, getElem?_append_of_some he _, ho, hr⟩
    rcases step_inv h with ⟨la, m, out, hla, hl, rfl⟩ | ⟨task, t, o, rfl, ht, rfl⟩
    · obtain ⟨-, hanswers, -⟩ := resume_spec (F := F) ({ s with
        auth := m, nextCall := s.nextCall + (callers [la]).length } : APIClient β) out
      rw [hanswers] at hr
      exact hold hr
    · obtain ⟨t', ht', ha, -⟩ := step_response h
      obtain rfl : t = t' := Option.some.inj (ht.symm.trans ht')
      rcases List.mem_append.mp hr with hr | hr
      · exact hold hr
      · obtain ⟨rfl, rfl⟩ : c = t.call.id ∧ r = t.call.endpoint.handler o := by simpa using hr
        have hlive : t.call ∈ s.live :=
          List.mem_append_right _ (mem_collect_call.mpr ⟨task, t, ht, rfl⟩)
        exact ⟨_, o, getElem?_append_of_some (hs.live t.call hlive) _, ha, rfl⟩

theorem Matches.exec {made : List Endpoint} (hs : Matches s made)
    (h : Runs.exec (APIClient.step F) s ls = some s') : Matches s' (made ++ ls.filterMap called) := by
  induction ls generalizing s made with
  | nil =>
    cases h
    rw [List.filterMap_nil, List.append_nil]
    exact hs
  | cons l ls ih =>
    obtain ⟨u, hu, h⟩ := Option.bind_eq_some_iff.mp h
    have hend := ih (hs.step hu) h
    rw [List.append_assoc] at hend
    cases hl : called l with
    | none =>
      rw [hl] at hend
      rw [List.filterMap_cons_none hl]
      exact hend
    | some e =>
      rw [hl] at hend
      rw [List.filterMap_cons_some hl]
      exact hend

theorem matches_launch (d : UserDefaults) (t : Date) : Matches (launch d t : APIClient β) [] where
  nextCall := rfl
  live := fun k hk => by cases hk
  answers := fun c r hr => by cases hr

/-- A decoded answer is of the kind that the endpoint's decoder gives. -/
theorem accepts_of_handler {e : Endpoint} {o : Outcome Payload} {result : Payload}
    (ho : e.accepts o = true) (h : e.handler o = .ok result) : e.accepts (.decoded result) = true := by
  cases o with
  | networkError => cases e <;> cases h
  | undecodable text => cases e <;> cases text <;> cases h
  | decoded result' =>
    rw [Endpoint.handler_decoded] at h
    cases h
    exact ho

/-- **Every answer fits its call.**  In every run, an answer stands for a call that was made, each call has
one at most, and what it carries is what the endpoint of that call decodes: a search is never answered with
albums, whatever order the manager, the data tasks and the calls take. -/
theorem answers_match (F : Foundation) (d : UserDefaults) (t : Date) (ls : List (APILabel β))
    (s : APIClient β) (h : Runs.exec (step F) (launch d t) ls = some s) :
    s.answered.Nodup ∧
    ∀ c r, (c, r) ∈ s.answers → ∃ e, (ls.filterMap called)[c]? = some e ∧
      (∃ o, e.accepts o = true ∧ r = e.handler o) ∧
      ∀ result, r = .ok result → e.accepts (.decoded result) = true := by
  constructor
  · have hledger : Ledger s := Runs.exec_inv (fun s l t hs hl => hs.step hl) (ledger_launch d t) h
    exact hledger.nodup.sublist s.answered_subset
  · intro c r hr
    obtain ⟨e, o, he, ho, rfl⟩ := ((matches_launch d t).exec h).answers c r hr
    exact ⟨e, he, ⟨o, ho, rfl⟩, fun result => accepts_of_handler ho⟩

/-- A login, then two searches. -/
def loginThenSearches : List (APILabel ℕ) :=
  [.auth (.generateToken "code" 0),
    .auth (.response 0 (.decoded ⟨"access", 3600, some "refresh", "user-read-private", "Bearer"⟩)),
    .call (.getartistProfile "a"), .call (.getartistProfile "b")]

/-- The two data tasks end in the other order: the first answer is the second call's. -/
theorem loginThenSearches_match : ∃ s, Runs.exec (step Foundation.ascii) (launch UserDefaults.empty 0)
      (loginThenSearches ++ [.response 1 .networkError, .response 0 (.undecodable none)]) = some s ∧
    s.answered = [1, 0] ∧ ∃ e o, e = Endpoint.getartistProfile "b" ∧ e.accepts o = true ∧
      (1, e.handler o) ∈ s.answers := by
  obtain ⟨s, hs, hanswered⟩ : ∃ s, Runs.exec (step Foundation.ascii) (launch UserDefaults.empty 0)
      (loginThenSearches ++ [.response 1 .networkError, .response 0 (.undecodable none)]) = some s ∧
      s.answered = [1, 0] := Runs.exec_of_any (by decide +kernel)
  obtain ⟨-, hmatch⟩ := answers_match Foundation.ascii _ _ _ s hs
  obtain ⟨⟨c, r⟩, hr, hc⟩ : ∃ a ∈ s.answers, a.1 = 1 :=
    List.mem_map.mp (show 1 ∈ s.answered by rw [hanswered]; decide)
  obtain rfl : c = 1 := hc
  obtain ⟨e, he, ⟨o, ho, rfl⟩, -⟩ := hmatch 1 r hr
  exact ⟨s, hs, hanswered, e, o, (Option.some.inj he).symm, ho, hr⟩

/-! ### Tokens -/

/-- A decoded token response is valid for more than 300 seconds. -/
def LongLived (l : APILabel β) : Prop := ∀ la, l = .auth la → AuthenticationManager.LongLived la

/-- A data task that starts carries a token that is stored, with a date more than 300 seconds ahead. -/
def SendsCurrent (F : Foundation) (s : APIClient β) (_ : APILabel β) (s' : APIClient β) : Prop :=
  ∀ id t, s.tasks.find? id = none → s'.tasks.find? id = some t →
    ∃ token, F.apiRequest t.call token = some t.request ∧ Current s'.auth token

theorem longLived_authLabel {l : APILabel β} {la : AuthLabel APICall β} (hl : LongLived l)
    (hla : s.authLabel l = some la) : AuthenticationManager.LongLived la := by
  cases l with
  | call e =>
    cases hla
    exact fun id r h => by cases h
  | auth la' =>
    have hlong := hl la' rfl
    cases la' with
    | validateToke k => cases hla
    | generateToken | refreshToken | signout | response | tick => cases hla; exact hlong
  | response task o => cases hla

theorem dated_step {l : APILabel β} (hs : Dated s.auth) (h : s.step F l = some s') : Dated s'.auth := by
  rcases step_inv h with ⟨la, m, out, hla, hl, rfl⟩ | ⟨task, t, o, rfl, ht, rfl⟩
  · rw [(resume_spec (F := F) _ out).1]
    exact hs.effect (AuthenticationManager.step_effect hl)
  · exact hs

theorem sendsCurrent_step {l : APILabel β} (hs : Dated s.auth) (hlong : LongLived l)
    (h : s.step F l = some s') : SendsCurrent F s l s' := by
  intro id t hnone hsome
  rcases step_inv h with ⟨la, m, out, hla, hl, rfl⟩ | ⟨task, t', o, rfl, ht, rfl⟩
  · rcases find?_resume hsome with hold | ⟨-, token, hmem, hq⟩
    · exact absurd (hnone.symm.trans hold) (by simp)
    · refine ⟨token, hq, ?_⟩
      rw [(resume_spec (F := F) _ out).1]
      exact (AuthenticationManager.step_effect hl).current hs (longLived_authLabel hlong hla) hmem
  · have hold := (Pool.find?_finish_eq_some.mp hsome).2
    exact absurd (hnone.symm.trans hold) (by simp)

/-- **Requests carry current tokens.**  In every run from an empty token store whose token responses are
valid for more than 300 seconds, each data task is sent with the access token that is stored when it
starts, at least 300 seconds before it expires, in the header of the request for its own endpoint. -/
theorem requests_fresh (F : Foundation) (user : Option UserProfile) (t : Date) (ls : List (APILabel β))
    (hlong : ∀ l ∈ ls, LongLived l) :
    Runs.EachStep (step F) (SendsCurrent F) (launch ⟨none, none, none, user⟩ t) ls := by
  intro p l s s' hp hs hl
  have h0 : Dated (launch ⟨none, none, none, user⟩ t : APIClient β).auth := fun h => absurd rfl h
  have hdated : Dated s.auth := Runs.exec_inv (I := fun s => Dated s.auth) (fun s l t => dated_step) h0 hs
  exact sendsCurrent_step hdated (hlong l (hp.subset (by simp))) hl

theorem loginThenSearches_fresh : ∃ s, Runs.exec (step Foundation.ascii)
    (launch UserDefaults.empty 0) loginThenSearches = some s ∧ (s.tasks.find? 0).isSome = true ∧
    Runs.EachStep (step Foundation.ascii) (SendsCurrent Foundation.ascii)
      (launch UserDefaults.empty 0) loginThenSearches := by
  obtain ⟨s, hs, htask⟩ : ∃ s, Runs.exec (step Foundation.ascii)
      (launch UserDefaults.empty 0) loginThenSearches = some s ∧ (s.tasks.find? 0).isSome = true :=
    Runs.exec_of_any (by decide +kernel)
  refine ⟨s, hs, htask, requests_fresh Foundation.ascii none 0 loginThenSearches ?_⟩
  simp [loginThenSearches, LongLived, AuthenticationManager.LongLived]

/-! ### Signed out -/

/-- Without tokens and without an exchange in flight, a step of the manager that is no login hands out no
token, starts no exchange and writes no token. -/
theorem quiet_of_signedOut {m m' : AuthenticationManager APICall β} {la : AuthLabel APICall β}
    {out : List (Call APICall β)} (hout : m.defaults.SignedOut) (hidle : ∀ id, m.tasks.find? id = none)
    (hla : ∀ code c, la ≠ .generateToken code c) (he : Effect m la m' out) :
    m'.defaults.SignedOut ∧ (∀ id, m'.tasks.find? id = none) ∧ resumed out = [] := by
  have hdue : m.shouldRefreshToken = false := by
    rw [AuthenticationManager.shouldRefreshToken, UserDefaults.shouldRefreshToken, hout.2.2]
  cases he with
  | loginStarted code c request => exact absurd rfl (hla code c)
  | refreshReturned c out hreturned =>
    refine ⟨hout, hidle, ?_⟩
    rcases hreturned with rfl | rfl <;> rfl
  | refreshStarted _ c request hl hr hdue' =>
    rw [hdue] at hdue'
    cases hdue'
  | queued k hr => exact ⟨hout, hidle, rfl⟩
  | delivered k token hr hdue htok =>
    rw [hout.1] at htok
    cases htok
  | dropped k hr hno => exact ⟨hout, hidle, rfl⟩
  | signedOut c => exact ⟨UserDefaults.signedOut_signout, hidle, rfl⟩
  | loginSucceeded id r q c hid | loginFailed id o q c hid ho | refreshSucceeded id r q c hid
  | refreshFailed id o q c hid ho =>
    rw [hidle id] at hid
    cases hid
  | ticked t => exact ⟨hout, hidle, rfl⟩

/-- **Signed out, the client is silent.**  From any state whose store holds no token and in which the
manager has no exchange in flight, no run without a login starts a data task or stores a token, however
many calls are made. -/
theorem silent_when_signed_out (F : Foundation) (s s' : APIClient β) (ls : List (APILabel β))
    (hout : s.auth.defaults.SignedOut) (hidle : ∀ id, s.auth.tasks.find? id = none)
    (hls : ∀ l ∈ ls, ∀ code c, l ≠ .auth (.generateToken code c))
    (h : Runs.exec (step F) s ls = some s') :
    s'.auth.defaults.SignedOut ∧ ∀ id t, s'.tasks.find? id = some t → s.tasks.find? id = some t := by
  induction ls generalizing s with
  | nil =>
    cases h
    exact ⟨hout, fun _ _ ht => ht⟩
  | cons l ls ih =>
    obtain ⟨hl0, hls'⟩ := List.forall_mem_cons.mp hls
    obtain ⟨u, hu, h⟩ := Option.bind_eq_some_iff.mp h
    rcases step_inv hu with ⟨la, m, out, hla, hl, rfl⟩ | ⟨task, t, o, rfl, ht, rfl⟩
    · have hla' : ∀ code c, la ≠ .generateToken code c := by
        rintro code c rfl
        cases l with
        | call e => cases hla
        | auth la' =>
          cases la' with
          | validateToke | refreshToken | signout | response | tick => cases hla
          | generateToken code' c' =>
            cases hla
            exact hl0 code c rfl
        | response task o => cases hla
      obtain ⟨hout', hidle', hquiet⟩ := quiet_of_signedOut hout hidle hla' (AuthenticationManager.step_effect hl)
      have hauth := (resume_spec (F := F) ({ s with
        auth := m, nextCall := s.nextCall + (callers [la]).length } : APIClient β) out).1
      obtain ⟨hend, hrest⟩ := ih _ (by rw [hauth]; exact hout') (by rw [hauth]; exact hidle') hls' h
      refine ⟨hend, fun id t ht => ?_⟩
      rcases find?_resume (hrest id t ht) with hold | ⟨-, token, hmem, -⟩
      · exact hold
      · have hk := mem_resumed hmem
        rw [hquiet] at hk
        cases hk
    · obtain ⟨hend, hrest⟩ := ih { s with
        tasks := s.tasks.finish task
        answers := s.answers ++ [(t.call.id, t.call.endpoint.handler o)] } hout hidle hls' h
      exact ⟨hend, fun id t' ht' => (Pool.find?_finish_eq_some.mp (hrest id t' ht')).2⟩

/-- After a sign-out, searches and album calls start nothing. -/
theorem signedOut_silent : ∃ s s' : APIClient ℕ,
    Runs.exec (step Foundation.ascii) (launch UserDefaults.empty 0)
      (loginThenSearches ++ [.auth (.signout 1), .response 1 .networkError]) = some s ∧
    Runs.exec (step Foundation.ascii) s
      [.call (.getartistProfile "b"), .auth (.tick 9000), .call (.getArtistAlbum "7")] = some s' ∧
    s'.auth.defaults.SignedOut ∧ s'.tasks.find? 2 = none := by
  obtain ⟨s, hs, hout, hitems, hnone, hrun⟩ : ∃ s : APIClient ℕ,
      Runs.exec (step Foundation.ascii) (launch UserDefaults.empty 0)
        (loginThenSearches ++ [.auth (.signout 1), .response 1 .networkError]) = some s ∧
      s.auth.defaults.SignedOut ∧ s.auth.tasks.items = [] ∧ s.tasks.find? 2 = none ∧
      (Runs.exec (step Foundation.ascii) s
        [.call (.getartistProfile "b"), .auth (.tick 9000), .call (.getArtistAlbum "7")]).isSome = true :=
    Runs.exec_of_any (by decide +kernel)
  obtain ⟨s', hs'⟩ := Option.isSome_iff_exists.mp hrun
  have hidle : ∀ id, s.auth.tasks.find? id = none := fun id => by rw [Pool.find?, hitems]; rfl
  obtain ⟨hout', hrest⟩ := silent_when_signed_out Foundation.ascii s s' _ hout hidle (by simp) hs'
  refine ⟨s, s', hs, hs', hout', ?_⟩
  cases hfind : s'.tasks.find? 2 with
  | none => rfl
  | some t => exact absurd (hnone.symm.trans (hrest 2 t hfind)) (by simp)

end Spotify.APIClient
