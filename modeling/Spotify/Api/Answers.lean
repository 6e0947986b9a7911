import Spotify.Api.Client

/-!
# Spotify.Api.Answers — every API call gets exactly one answer, when it does

A call lives in the manager (queued, or as the starter of a refresh), in its data task, or among the
answers; `places` lists the calls wherever they live.  A step moves calls between these places, receives
at most one new call and drops some (`conserve`).  So no call is ever answered twice, and
`answered_exactly_once_iff` says which steps drop a call or leave it behind in the queue.
-/

namespace Spotify.APIClient

open AuthenticationManager (holders initiator callers lost resumed SingleFlight QueueDrained FailsAlone
  Effect)

variable {β : Type} {F : Foundation} {s s' : APIClient β}

/-- The calls in the queue of the manager, and those that started a refresh in flight. -/
def queued (s : APIClient β) : List ℕ := s.auth.refresh.map APICall.id

def starting (s : APIClient β) : List ℕ := (s.auth.tasks.collect initiator).map APICall.id

/-- The calls that are waiting for an exchange in flight. -/
def pending (s : APIClient β) : List ℕ :=
  (if s.auth.isRefreshing then s.queued else []) ++ s.starting ++ s.loading

/-- Wherever a call lives. -/
def places (s : APIClient β) : List ℕ := s.queued ++ s.starting ++ s.loading ++ s.answered

/-- No call is answered twice, and a call that waits for no exchange has been answered. -/
def ExactlyOnce (s : APIClient β) : Prop :=
  ∀ c < s.nextCall, s.answered.count c ≤ 1 ∧ (c ∉ s.pending → s.answered.count c = 1)

instance : DecidablePred (ExactlyOnce (β := β)) :=
  fun s => inferInstanceAs (Decidable (∀ c < s.nextCall, _ ∧ (_ → _)))

/-- The step drops no call and leaves none behind.  A call made while no refresh is in flight finds a
refresh token if its token is due, and an access token and a URL that parses if it is not; a refresh that
succeeds finds only callers whose URL parses; a refresh that fails finds no caller. -/
structure Served (F : Foundation) (s : APIClient β) (l : APILabel β) : Prop where
  called : ∀ e, l = .call e → s.auth.isRefreshing = false →
    if s.auth.shouldRefreshToken then s.auth.defaults.refreshToken ≠ none
    else s.auth.defaults.accessToken ≠ none ∧ F.url e.urlString ≠ none
  refreshed : ∀ id r q c, l = .auth (.response id (.decoded r)) →
    s.auth.tasks.find? id = some (.refreshToken q c) →
    ∀ k, k ∈ s.auth.refresh ∨ c = .validateToke k → F.url k.endpoint.urlString ≠ none
  failed : ∀ id o q c, l = .auth (.response id o) →
    s.auth.tasks.find? id = some (.refreshToken q c) → (∀ r, o ≠ .decoded r) →
    s.auth.refresh = [] ∧ ∀ k, c ≠ .validateToke k

/-! ### The conservation law -/

theorem places_perm_auth {la : AuthLabel APICall β} {m : AuthenticationManager APICall β}
    {out : List (Call APICall β)} (hl : s.auth.step F la = some (m, out)) (n : ℕ) :
    (s.places ++ (callers [la]).map APICall.id).Perm
      ((({ s with auth := m, nextCall := n } : APIClient β).resume F out).places ++
        (lost s.auth la ++ unsent F out).map APICall.id) := by
  obtain ⟨h1, h2, -, h4⟩ := resume_spec (F := F) ({ s with auth := m, nextCall := n } : APIClient β) out
  have hm := ((AuthenticationManager.step_effect hl).callers_perm).map APICall.id
  have hsplit := (perm_unsent (F := F) out).map APICall.id
  rw [List.perm_iff_count] at hm hsplit ⊢
  intro c
  have hc := hm c
  have hs := hsplit c
  simp only [places, queued, starting, answered, h1, h2, h4, holders, List.map_append,
    List.count_append] at hc hs ⊢
  simp only [loading] at *
  omega

theorem places_perm_response {task : ℕ} {t : DataTask} (ht : s.tasks.find? task = some t)
    (o : Outcome Payload) :
    s.places.Perm ({ s with
      tasks := s.tasks.finish task
      answers := s.answers ++ [(t.call.id, t.call.endpoint.handler o)] } : APIClient β).places := by
  have hp := Pool.perm_collect_finish (fun t : DataTask => some t.call.id) ht
  rw [List.perm_iff_count] at hp ⊢
  intro c
  have hc := hp c
  simp only [places, queued, starting, answered, loading, List.map_append, List.count_append,
    List.map_cons, List.map_nil, Option.toList_some] at hc ⊢
  omega

theorem callers_authLabel {l : APILabel β} {la : AuthLabel APICall β} (h : s.authLabel l = some la) :
    callers [la] = [] ∨ (callers [la]).map APICall.id = [s.nextCall] ∧ (callers [la]).length = 1 := by
  cases l with
  | call e => cases h; exact .inr ⟨rfl, rfl⟩
  | auth la' => cases la' <;> cases h <;> exact .inl rfl
  | response => cases h

/-- **Conservation of calls.** -/
theorem conserve {l : APILabel β} (h : s.step F l = some s') : ∃ new gone,
    (s.places ++ new).Perm (s'.places ++ gone) ∧
    ((new = [] ∧ s'.nextCall = s.nextCall) ∨ (new = [s.nextCall] ∧ s'.nextCall = s.nextCall + 1)) ∧
    (∀ la, s.authLabel l = some la → ∃ m out, s.auth.step F la = some (m, out) ∧ s'.auth = m ∧
      gone = (lost s.auth la ++ unsent F out).map APICall.id) ∧
    (s.authLabel l = none → gone = [] ∧ s'.auth = s.auth) := by
  rcases step_inv h with ⟨la, m, out, hla, hl, rfl⟩ | ⟨task, t, o, rfl, ht, rfl⟩
  · obtain ⟨h1, -, h3, -⟩ := resume_spec (F := F) ({ s with
      auth := m, nextCall := s.nextCall + (callers [la]).length } : APIClient β) out
    refine ⟨_, _, places_perm_auth hl _, ?_, ?_, ?_⟩
    · rcases callers_authLabel hla with hno | ⟨hnew, hlen⟩
      · exact .inl ⟨by rw [hno]; rfl, by rw [h3, hno]; rfl⟩
      · exact .inr ⟨hnew, by rw [h3, hlen]⟩
    · intro la' hla'
      rw [hla] at hla'
      cases hla'
      exact ⟨m, out, hl, h1, rfl⟩
    · intro hnone
      rw [hla] at hnone
      cases hnone
  · refine ⟨[], [], ?_, .inl ⟨rfl, rfl⟩, ?_, fun _ => ⟨rfl, rfl⟩⟩
    · rw [List.append_nil, List.append_nil]
      exact places_perm_response ht o
    · intro la hla
      cases hla

/-- Every call lives in one place at most. -/
structure Ledger (s : APIClient β) : Prop where
  flight : SingleFlight s.auth
  nodup : s.places.Nodup
  lt : ∀ c ∈ s.places, c < s.nextCall

theorem ledger_launch (d : UserDefaults) (t : Date) : Ledger (launch d t : APIClient β) :=
  ⟨AuthenticationManager.singleFlight_launch d t, List.nodup_nil, fun _ h => absurd h List.not_mem_nil⟩

/-- What a step leaves and drops are different calls. -/
theorem Ledger.append (hs : Ledger s) {new gone : List ℕ}
    (hp : (s.places ++ new).Perm (s'.places ++ gone))
    (hnew : (new = [] ∧ s'.nextCall = s.nextCall) ∨ (new = [s.nextCall] ∧ s'.nextCall = s.nextCall + 1)) :
    (s'.places ++ gone).Nodup ∧ ∀ c ∈ s'.places ++ gone, c < s'.nextCall := by
  rcases hnew with ⟨rfl, hn⟩ | ⟨rfl, hn⟩
  · rw [List.append_nil] at hp
    exact ⟨hp.nodup_iff.mp hs.nodup, fun c hc => hn ▸ hs.lt c (hp.mem_iff.mpr hc)⟩
  · have hfresh : s.nextCall ∉ s.places := fun h => Nat.lt_irrefl _ (hs.lt _ h)
    refine ⟨hp.nodup_iff.mp ?_, fun c hc => ?_⟩
    · exact List.nodup_append.mpr ⟨hs.nodup, List.nodup_singleton _, fun a ha b hb hab =>
        hfresh (List.mem_singleton.mp hb ▸ hab ▸ ha)⟩
    · rcases List.mem_append.mp (hp.mem_iff.mpr hc) with h | h
      · have := hs.lt c h
        omega
      · rw [List.mem_singleton.mp h]
        omega

theorem flight_step {l : APILabel β} (hs : SingleFlight s.auth) (h : s.step F l = some s') :
    SingleFlight s'.auth := by
  obtain ⟨_, _, -, -, hauth, hnone⟩ := conserve h
  cases hla : s.authLabel l with
  | none => rw [(hnone hla).2]; exact hs
  | some la =>
    obtain ⟨m, out, hl, rfl, -⟩ := hauth la hla
    exact hs.effect (AuthenticationManager.step_effect hl)

theorem Ledger.step {l : APILabel β} (hs : Ledger s) (h : s.step F l = some s') : Ledger s' := by
  obtain ⟨new, gone, hp, hnew, -, -⟩ := conserve h
  obtain ⟨hnd, hlt⟩ := hs.append hp hnew
  exact ⟨flight_step hs.flight h, (List.nodup_append.mp hnd).1,
    fun c hc => hlt c (List.mem_append_left _ hc)⟩

theorem answered_subset (s : APIClient β) : s.answered.Sublist s.places := List.sublist_append_right _ _

theorem pending_subset (s : APIClient β) : s.pending ⊆ s.places := by
  intro c hc
  simp only [pending, List.mem_append] at hc
  simp only [places, List.mem_append]
  rcases hc with (hc | hc) | hc
  · split at hc
    · exact .inl (.inl (.inl hc))
    · cases hc
  · exact .inl (.inl (.inr hc))
  · exact .inl (.inr hc)

/-- A call that lives nowhere has not been answered once. -/
theorem not_exactlyOnce_of_nowhere {c : ℕ} (hlt : c < s.nextCall) (h : c ∉ s.places) :
    ¬ ExactlyOnce s := by
  intro hP
  have hone := (hP c hlt).2 fun hc => h (s.pending_subset hc)
  rw [List.count_eq_zero_of_not_mem fun hc => h (s.answered_subset.subset hc)] at hone
  cases hone

/-- Neither has one that a failed refresh left in the queue. -/
theorem not_exactlyOnce_of_queued (hs : Ledger s) (hr : s.auth.isRefreshing = false) {k : APICall}
    (hk : k ∈ s.auth.refresh) : ¬ ExactlyOnce s := by
  intro hP
  have hq : k.id ∈ s.queued := List.mem_map_of_mem hk
  have hplace : k.id ∈ s.places := by simp only [places, List.mem_append]; exact .inl (.inl (.inl hq))
  have hnd := hs.nodup
  simp only [places, List.append_assoc] at hnd
  have hrest : k.id ∉ s.starting ++ (s.loading ++ s.answered) :=
    fun h => (List.nodup_append.mp hnd).2.2 _ hq _ h rfl
  simp only [List.mem_append, not_or] at hrest
  have hone := (hP k.id (hs.lt _ hplace)).2 (by simp [pending, hr, hrest.1, hrest.2.1])
  rw [List.count_eq_zero_of_not_mem hrest.2.2] at hone
  cases hone

/-- No call has been dropped or left behind. -/
structure Complete (s : APIClient β) : Prop extends Ledger s where
  all : ∀ c < s.nextCall, c ∈ s.places
  drained : QueueDrained s.auth

theorem Complete.exactlyOnce (hs : Complete s) : ExactlyOnce s := by
  intro c hc
  have hnd := hs.nodup.sublist s.answered_subset
  refine ⟨List.nodup_iff_count_le_one.mp hnd c, fun hno => ?_⟩
  refine List.count_eq_one_of_mem hnd ?_
  have hc := hs.all c hc
  simp only [places, List.mem_append] at hc
  simp only [pending, List.mem_append, not_or] at hno
  rcases hc with ((hq | hst) | hld) | ha
  · cases hr : s.auth.isRefreshing with
    | true =>
      rw [hr] at hno
      exact absurd hq hno.1.1
    | false =>
      rw [queued, hs.drained hr] at hq
      cases hq
  · exact absurd hst hno.1.2
  · exact absurd hld hno.2
  · exact ha

/-! ### Which steps serve everyone -/

theorem unsent_eq_nil {out : List (Call APICall β)} :
    unsent F out = [] ↔ ∀ k ∈ resumed out, F.url k.endpoint.urlString ≠ none := by
  simp [unsent, List.filter_eq_nil_iff]

theorem served_call {e : Endpoint} {m : AuthenticationManager APICall β} {out : List (Call APICall β)}
    (he : Effect s.auth (.validateToke ⟨s.nextCall, e⟩) m out) :
    Served F s (.call e) ↔ lost s.auth (.validateToke ⟨s.nextCall, e⟩) = [] ∧ unsent F out = [] := by
  have hiff : Served F s (.call e) ↔ (s.auth.isRefreshing = false →
      if s.auth.shouldRefreshToken then s.auth.defaults.refreshToken ≠ none
      else s.auth.defaults.accessToken ≠ none ∧ F.url e.urlString ≠ none) := by
    constructor
    · exact fun h => h.called e rfl
    · intro h
      exact ⟨fun e' he' => by cases he'; exact h, fun _ _ _ _ hl => by (cases hl),
        fun _ _ _ _ hl => by (cases hl)⟩
  rw [hiff, unsent_eq_nil]
  cases he with
  | refreshStarted _ _ _ _ hr hdue htok => simp [lost, hr, hdue, htok, resumed]
  | queued _ hr => simp [lost, hr, resumed]
  | delivered _ token hr hdue htok => simp [lost, hr, hdue, htok, resumed]
  | dropped _ hr hno =>
    rcases hno with ⟨hdue, h⟩ | ⟨hdue, h⟩ <;> simp [lost, hr, hdue, h]

/-- A step that answers no refresh and drops no call serves everyone. -/
theorem served_of_no_refresh {la : AuthLabel APICall β} {out : List (Call APICall β)}
    (hlost : lost s.auth la = []) (hsent : unsent F out = [])
    (h : ∀ id o q c, la = .response id o → s.auth.tasks.find? id ≠ some (.refreshToken q c)) :
    Served F s (.auth la) ↔ lost s.auth la = [] ∧ unsent F out = [] ∧ FailsAlone s.auth la := by
  refine iff_of_true ⟨fun _ hl => by (cases hl), ?_, ?_⟩
    ⟨hlost, hsent, fun id o q c hl hid => absurd hid (h id o q c hl)⟩
  · intro id r q c hl hid
    cases hl
    exact absurd hid (h id _ q c rfl)
  · intro id o q c hl hid
    cases hl
    exact absurd hid (h id o q c rfl)

theorem served_refreshed {id : ℕ} {r : AuthenticationResponse} {q : URLRequest}
    {c : RefreshCompletion APICall β} (hid : s.auth.tasks.find? id = some (.refreshToken q c)) :
    Served F s (.auth (.response id (.decoded r))) ↔
      ∀ k, k ∈ s.auth.refresh ∨ c = .validateToke k → F.url k.endpoint.urlString ≠ none := by
  constructor
  · exact fun h => h.refreshed id r q c rfl hid
  · intro h
    refine ⟨fun _ hl => by (cases hl), ?_, ?_⟩
    · intro id' r' q' c' hl hid'
      cases hl
      rw [hid] at hid'
      cases hid'
      exact h
    · intro id' o' q' c' hl _ ho
      cases hl
      exact absurd rfl (ho r)

theorem served_refreshFailed {id : ℕ} {o : Outcome AuthenticationResponse} {q : URLRequest}
    {c : RefreshCompletion APICall β} (hid : s.auth.tasks.find? id = some (.refreshToken q c))
    (ho : ∀ r, o ≠ .decoded r) :
    Served F s (.auth (.response id o)) ↔ s.auth.refresh = [] ∧ ∀ k, c ≠ .validateToke k := by
  constructor
  · exact fun h => h.failed id o q c rfl hid ho
  · intro h
    refine ⟨fun _ hl => by (cases hl), ?_, ?_⟩
    · intro id' r' q' c' hl
      cases hl
      exact absurd rfl (ho r')
    · intro id' o' q' c' hl hid' _
      cases hl
      rw [hid] at hid'
      cases hid'
      exact h

theorem served_auth {la : AuthLabel APICall β} {m : AuthenticationManager APICall β}
    {out : List (Call APICall β)} (hla : ∀ k, la ≠ .validateToke k) (he : Effect s.auth la m out) :
    Served F s (.auth la) ↔ lost s.auth la = [] ∧ unsent F out = [] ∧ FailsAlone s.auth la := by
  cases he with
  | loginStarted | signedOut | ticked => exact served_of_no_refresh rfl rfl fun _ _ _ _ hl => by cases hl
  | refreshReturned _ _ hout =>
    refine served_of_no_refresh rfl ?_ fun _ _ _ _ hl => by cases hl
    rcases hout with rfl | rfl <;> rfl
  | refreshStarted _ _ _ hl =>
    rcases hl with ⟨b, rfl, -⟩ | ⟨k, rfl, -⟩
    · exact served_of_no_refresh rfl rfl fun _ _ _ _ hl => by cases hl
    · exact absurd rfl (hla k)
  | queued k | delivered k | dropped k => exact absurd rfl (hla k)
  | loginSucceeded id r q c hid =>
    refine served_of_no_refresh rfl rfl fun _ _ _ _ hl => ?_
    cases hl
    simp [hid]
  | loginFailed id o q c hid ho =>
    refine served_of_no_refresh ?_ rfl fun _ _ _ _ hl => ?_
    · rw [AuthenticationManager.lost_of_failed ho, hid]
      rfl
    · cases hl
      simp [hid]
  | refreshSucceeded id r q c hid =>
    have halone : FailsAlone s.auth (.response id (.decoded r)) := by
      intro _ _ _ _ hl _ ho
      cases hl
      exact absurd rfl (ho r)
    rw [served_refreshed hid, unsent_eq_nil, AuthenticationManager.resumed_append,
      AuthenticationManager.resumed_map_token,
      AuthenticationManager.resumed_run_true (UserDefaults.accessToken_cacheToken _ _) q]
    cases c <;> simp [lost, halone, initiator, eq_comm]
  | refreshFailed id o q c hid ho =>
    have halone : FailsAlone s.auth (.response id o) ↔ s.auth.refresh = [] := by
      constructor
      · exact fun h => h id o q c rfl hid ho
      · exact fun h _ _ _ _ _ _ _ => h
    rw [served_refreshFailed hid ho, halone, unsent_eq_nil, AuthenticationManager.lost_of_failed ho,
      AuthenticationManager.resumed_run_false, hid]
    cases c <;> simp [initiator, and_comm]

/-- **What `Served` rules out**: a call dropped by the manager, one whose URL does not parse, and one
that a failed refresh leaves in the queue. -/
theorem served_iff {l : APILabel β} {la : AuthLabel APICall β} {m : AuthenticationManager APICall β}
    {out : List (Call APICall β)} (hla : s.authLabel l = some la) (hl : s.auth.step F la = some (m, out)) :
    Served F s l ↔ lost s.auth la = [] ∧ unsent F out = [] ∧ FailsAlone s.auth la := by
  have he := AuthenticationManager.step_effect hl
  cases l with
  | call e =>
    cases hla
    have halone : FailsAlone s.auth (.validateToke ⟨s.nextCall, e⟩) := fun _ _ _ _ hl => by (cases hl)
    simp [served_call he, halone]
  | auth la' =>
    cases la' with
    | validateToke k => cases hla
    | generateToken | refreshToken | signout | response | tick =>
      cases hla
      exact served_auth (fun _ h => by cases h) he
  | response task o => cases hla

theorem Complete.step {l : APILabel β} (hs : Complete s) (hg : Served F s l) (h : s.step F l = some s') :
    Complete s' := by
  obtain ⟨new, gone, hp, hnew, hauth, hnone⟩ := conserve h
  have hgone : gone = [] ∧ QueueDrained s'.auth := by
    cases hla : s.authLabel l with
    | none =>
      obtain ⟨hgone, hm⟩ := hnone hla
      exact ⟨hgone, hm ▸ hs.drained⟩
    | some la =>
      obtain ⟨m, out, hl, rfl, rfl⟩ := hauth la hla
      obtain ⟨hlost, hsent, halone⟩ := (served_iff hla hl).mp hg
      refine ⟨by rw [hlost, hsent]; rfl, ?_⟩
      exact AuthenticationManager.queueDrained_effect hs.drained halone
        (AuthenticationManager.step_effect hl)
  obtain ⟨rfl, hdrained⟩ := hgone
  refine ⟨hs.toLedger.step h, fun c hc => ?_, hdrained⟩
  rw [List.append_nil] at hp
  refine hp.mem_iff.mp (List.mem_append.mpr ?_)
  rcases hnew with ⟨-, hn⟩ | ⟨rfl, hn⟩
  · exact .inl (hs.all c (hn ▸ hc))
  · rcases Nat.lt_succ_iff_lt_or_eq.mp (hn ▸ hc) with hlt | rfl
    · exact .inl (hs.all c hlt)
    · exact .inr (List.mem_singleton.mpr rfl)

/-- A step after which every call still gets its one answer has served everyone. -/
theorem Ledger.served {l : APILabel β} (hs : Ledger s) (h : s.step F l = some s')
    (hP : ExactlyOnce s') : Served F s l := by
  obtain ⟨new, gone, hp, hnew, hauth, -⟩ := conserve h
  have hs' := hs.step h
  obtain ⟨hnd, hlt⟩ := hs.append hp hnew
  cases hla : s.authLabel l with
  | none =>
    cases l with
    | call => cases hla
    | auth la =>
      cases la with
      | validateToke k => cases h
      | generateToken | refreshToken | signout | response | tick => cases hla
    | response task o =>
      exact ⟨fun _ hl => by (cases hl), fun _ _ _ _ hl => by (cases hl), fun _ _ _ _ hl => by (cases hl)⟩
  | some la =>
    obtain ⟨m, out, hl, rfl, rfl⟩ := hauth la hla
    have hnone : lost s.auth la ++ unsent F out = [] := by
      cases hgone : lost s.auth la ++ unsent F out with
      | nil => rfl
      | cons k ks =>
        rw [hgone] at hnd hlt
        have hk : k.id ∈ (k :: ks).map APICall.id := by simp
        refine absurd hP (not_exactlyOnce_of_nowhere (hlt _ (List.mem_append_right _ hk)) fun hin => ?_)
        exact (List.nodup_append.mp hnd).2.2 _ hin _ hk rfl
    obtain ⟨hlost, hsent⟩ := List.append_eq_nil_iff.mp hnone
    refine (served_iff hla hl).mpr ⟨hlost, hsent, ?_⟩
    refine AuthenticationManager.failsAlone_of_queueDrained (AuthenticationManager.step_effect hl) ?_
    intro hr
    cases hq : s'.auth.refresh with
    | nil => rfl
    | cons k ks => exact absurd hP (not_exactlyOnce_of_queued hs' hr (k := k) (by simp [hq]))

/-- **Exactly one answer.**  In every run from launch no call is answered twice; and in every state of a
run each call that waits for no exchange has been answered exactly once if and only if every step of the
run is `Served`. -/
theorem answered_exactly_once_iff (F : Foundation) (d : UserDefaults) (t : Date) (ls : List (APILabel β)) :
    Runs.Always (step F) (fun s => s.answered.Nodup) (launch d t) ls ∧
    (Runs.Always (step F) ExactlyOnce (launch d t) ls ↔
      Runs.EachStep (step F) (fun s l _ => Served F s l) (launch d t) ls) := by
  have h0 : Complete (launch d t : APIClient β) :=
    ⟨ledger_launch d t, fun c hc => absurd hc (Nat.not_lt_zero c), fun _ => rfl⟩
  constructor
  · intro p s _ hp
    exact (Runs.exec_inv (fun s l t hs hl => hs.step hl) (ledger_launch d t) hp).nodup.sublist
      s.answered_subset
  · refine Runs.always_iff_eachStep (I := Complete) (fun _ h => h.exactlyOnce) ?_ ?_ h0
    · exact fun s l s' hs hg h => hs.step hg h
    · exact fun s l s' hs h hP => hs.toLedger.served h hP

/-- Four calls that are never answered: one made without a token, one made with a token that is due and
no refresh token, a search whose text makes no URL, and a starter of a failed refresh (the caller queued
behind it is left in the queue). -/
theorem calls_never_answered :
    ¬ Runs.Always (step Foundation.ascii) ExactlyOnce (launch UserDefaults.empty 1000 : APIClient ℕ)
      [.call .getUserProfile] ∧
    ¬ Runs.Always (step Foundation.ascii) ExactlyOnce
      (launch { AuthenticationManager.dueStore with refreshToken := none } 1000 : APIClient ℕ)
      [.call .getUserProfile] ∧
    ¬ Runs.Always (step Foundation.ascii) ExactlyOnce
      (launch { AuthenticationManager.dueStore with expirationDate := some 3600 } 0 : APIClient ℕ)
      [.call (.getartistProfile "Motörhead")] ∧
    ¬ Runs.Always (step Foundation.ascii) ExactlyOnce
      (launch AuthenticationManager.dueStore 1000 : APIClient ℕ)
      [.call .getUserProfile, .call (.getArtistAlbum "7"), .auth (.response 0 .networkError)] :=
  ⟨Runs.not_always_of_exec (by decide +kernel), Runs.not_always_of_exec (by decide +kernel),
    Runs.not_always_of_exec (by decide +kernel), Runs.not_always_of_exec (by decide +kernel)⟩

end Spotify.APIClient
