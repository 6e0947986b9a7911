import Spotify.Auth.SingleFlight

/-!
# Spotify.Auth.Sessions — which login each stored key belongs to

Beside the manager we note, for every token key, where its value comes from: the store at launch, or the
decoded answer of an exchange, with the session of that exchange.  A `generateToken` exchange that succeeds
opens a session of its own, a refresh exchange belongs to the session of the refresh token it sent.  The notes
do not influence the run (`Runs.exec_annotated_iff`), and each stored value is the one that its note names
(`Stores`).  `cacheToken` writes `refresh_token` only when the response carries one, and the handlers do not
look at what has happened since their exchange started; `unmixed_iff` says exactly which answers mix two
sessions.
-/

namespace Spotify.AuthenticationManager

variable {κ β : Type} {F : Foundation} {m m' : AuthenticationManager κ β}

/-- A login: one of an earlier process, or that of a `generateToken` exchange. -/
inductive Session where
  | earlier
  | login (task : ℕ)
  deriving DecidableEq

/-- Where the value of a key comes from. -/
inductive Origin where
  | launch
  | removed
  /-- the decoded response of an exchange of `session`, which came at `date` -/
  | answer (exchange : ℕ) (session : Session) (result : AuthenticationResponse) (date : Date)

namespace Origin

def session : Origin → Session
  | .launch | .removed => .earlier
  | .answer _ session _ _ => session

@[simp] theorem session_answer (exchange : ℕ) (s : Session) (result : AuthenticationResponse) (date : Date) :
    (answer exchange s result date).session = s := rfl

/-- The value of a key: `stored` at launch, and `field` of a response. -/
def value {α : Type} (stored : Option α) (field : AuthenticationResponse → Date → Option α) :
    Origin → Option α
  | .launch => stored
  | .removed => none
  | .answer _ _ result date => field result date

end Origin

/-- The origin of each key, the most recently completed login, and for each refresh exchange the origin of the
refresh token it sent. -/
structure Sessions where
  accessToken : Origin
  refreshToken : Origin
  expirationDate : Origin
  latest : Session
  sent : ℕ → Origin

namespace Sessions

/-- At launch the store holds what one earlier login left. -/
def launch : Sessions := ⟨.launch, .launch, .launch, .earlier, fun _ => .launch⟩

/-- The fields of a response belong to the session of its exchange. -/
def answered (g : Sessions) (exchange : ℕ) (session : Session) (result : AuthenticationResponse)
    (date : Date) : Sessions :=
  let origin := Origin.answer exchange session result date
  { g with
    accessToken := origin
    refreshToken := if result.refreshToken.isSome then origin else g.refreshToken
    expirationDate := origin }

/-- The notes taken at a step.  A `refreshToken` or `validateToke` call that starts an exchange does so
under the identifier `m.tasks.next` and sends the stored refresh token. -/
def note (m : AuthenticationManager κ β) (l : AuthLabel κ β) (g : Sessions) : Sessions :=
  match l with
  | .refreshToken _ | .validateToke _ =>
    { g with sent := Function.update g.sent m.tasks.next g.refreshToken }
  | .response task (.decoded result) =>
    match m.tasks.find? task with
    | some (.generateToken _ _) =>
      { g.answered task (.login task) result m.now with latest := .login task }
    | some (.refreshToken _ _) => g.answered task (g.sent task).session result m.now
    | none => g
  | .signout _ => { g with accessToken := .removed, refreshToken := .removed, expirationDate := .removed }
  | _ => g

end Sessions

/-- The manager with its notes. -/
def tagged (F : Foundation) : AuthenticationManager κ β × Sessions → AuthLabel κ β →
    Option (AuthenticationManager κ β × Sessions) :=
  Runs.annotated (next F) Sessions.note

/-- The request of a refresh, with its refresh token. -/
def SendsToken (F : Foundation) (request : URLRequest) (refreshToken : String) : Prop :=
  ∃ u, F.url Constants.tokenURL = some u ∧
    F.tokenRequest u [⟨"grant_type", "refresh_token"⟩, ⟨"refresh_token", refreshToken⟩] = some request

/-- Each stored value is the one that its note names. -/
structure Stores (d : UserDefaults) (s : AuthenticationManager κ β × Sessions) : Prop where
  accessToken : s.1.defaults.accessToken =
    s.2.accessToken.value d.accessToken fun result _ => some result.accessToken
  refreshToken : s.1.defaults.refreshToken =
    s.2.refreshToken.value d.refreshToken fun result _ => result.refreshToken
  expirationDate : s.1.defaults.expirationDate =
    s.2.expirationDate.value d.expirationDate fun result date => some (date + result.expiresIn)

/-- Each refresh exchange in flight has sent the refresh token that its note names. -/
def Sent (F : Foundation) (d : UserDefaults) (s : AuthenticationManager κ β × Sessions) : Prop :=
  ∀ id q c, s.1.tasks.find? id = some (.refreshToken q c) → ∃ token,
    (s.2.sent id).value d.refreshToken (fun result _ => result.refreshToken) = some token ∧
      SendsToken F q token

/-- Every key present belongs to the most recently completed login. -/
def Unmixed (s : AuthenticationManager κ β × Sessions) : Prop :=
  (s.1.defaults.accessToken ≠ none → s.2.accessToken.session = s.2.latest) ∧
  (s.1.defaults.refreshToken ≠ none → s.2.refreshToken.session = s.2.latest) ∧
  (s.1.defaults.expirationDate ≠ none → s.2.expirationDate.session = s.2.latest)

instance : DecidablePred (Unmixed (κ := κ) (β := β)) :=
  fun _ => inferInstanceAs (Decidable (_ ∧ _ ∧ _))

/-- If the label is a decoded answer: a login carries a refresh token or finds none stored, and a
refresh belongs to the most recently completed login. -/
def KeepsSession (s : AuthenticationManager κ β × Sessions) (l : AuthLabel κ β) : Prop :=
  ∀ id r, l = .response id (.decoded r) →
    (∀ q c, s.1.tasks.find? id = some (.generateToken q c) →
      r.refreshToken ≠ none ∨ s.1.defaults.refreshToken = none) ∧
    (∀ q c, s.1.tasks.find? id = some (.refreshToken q c) → (s.2.sent id).session = s.2.latest)

/-- The most recently completed login is not in flight any more. -/
def LatestDone (s : AuthenticationManager κ β × Sessions) : Prop :=
  ∀ id, s.2.latest = .login id → s.1.tasks.find? id = none ∧ id < s.1.tasks.next

theorem refreshToken_cacheToken_of_none {d : UserDefaults} {r : AuthenticationResponse}
    (h : r.refreshToken = none) (t : Date) : (d.cacheToken r t).refreshToken = d.refreshToken := by
  simp [UserDefaults.cacheToken, h]

/-- An exchange that fails leaves the notes as they are. -/
theorem Sessions.note_of_not_decoded {g : Sessions} {id : ℕ} {o : Outcome AuthenticationResponse}
    (ho : ∀ r, o ≠ .decoded r) : Sessions.note m (.response id o) g = g := by
  cases o with
  | decoded r => exact absurd rfl (ho r)
  | networkError | undecodable => rfl

/-! ### The notes keep up with the store -/

theorem Stores.answered {d : UserDefaults} {g : Sessions} (h : Stores d (m, g)) (exchange : ℕ)
    (session : Session) (r : AuthenticationResponse) (m' : AuthenticationManager κ β)
    (hm' : m'.defaults = m.defaults.cacheToken r m.now) :
    Stores d (m', g.answered exchange session r m.now) := by
  constructor
  · rw [hm']
    rfl
  · rw [hm']
    cases hr : r.refreshToken with
    | some token => simp [UserDefaults.cacheToken, Sessions.answered, Origin.value, hr]
    | none =>
      rw [refreshToken_cacheToken_of_none hr]
      simpa [Sessions.answered, hr] using h.refreshToken
  · rw [hm']
    rfl

theorem stores_effect {d : UserDefaults} {g : Sessions} {l : AuthLabel κ β} {out : List (Call κ β)}
    (h : Stores d (m, g)) (he : Effect m l m' out) : Stores d (m', Sessions.note m l g) := by
  have same : ∀ {g' : Sessions}, m'.defaults = m.defaults → g'.accessToken = g.accessToken →
      g'.refreshToken = g.refreshToken → g'.expirationDate = g.expirationDate → Stores d (m', g') := by
    intro g' hd ha hr hx
    exact ⟨by rw [hd, ha]; exact h.accessToken, by rw [hd, hr]; exact h.refreshToken,
      by rw [hd, hx]; exact h.expirationDate⟩
  cases he with
  | loginStarted | refreshReturned | queued | delivered | dropped | ticked => exact same rfl rfl rfl rfl
  | refreshStarted _ _ _ hl => rcases hl with ⟨b, rfl, -⟩ | ⟨k, rfl, -⟩ <;> exact same rfl rfl rfl rfl
  | signedOut c => exact ⟨rfl, rfl, rfl⟩
  | loginSucceeded id r q c hid =>
    have hg := h.answered id (.login id) r { m with defaults := m.defaults.cacheToken r m.now } rfl
    simp only [Sessions.note, hid]
    exact ⟨hg.accessToken, hg.refreshToken, hg.expirationDate⟩
  | refreshSucceeded id r q c hid =>
    simp only [Sessions.note, hid]
    exact h.answered id (g.sent id).session r _ rfl
  | loginFailed id o q c hid ho | refreshFailed id o q c hid ho =>
    rw [Sessions.note_of_not_decoded ho]
    exact same rfl rfl rfl rfl

/-- The exchange `id` was started in a step, with the stored refresh token. -/
def JustSent (F : Foundation) (m : AuthenticationManager κ β) (id : ℕ) (q : URLRequest) : Prop :=
  id = m.tasks.next ∧ ∃ token, m.defaults.refreshToken = some token ∧ SendsToken F q token

theorem refreshToken_sent {c c' : RefreshCompletion κ β} {id : ℕ} {q : URLRequest}
    (hid : (m.refreshToken F c').1.tasks.find? id = some (.refreshToken q c)) :
    m.tasks.find? id = some (.refreshToken q c) ∨ JustSent F m id q := by
  cases hr : m.isRefreshing with
  | true =>
    rw [refreshToken_of_refreshing hr] at hid
    exact .inl hid
  | false =>
    cases hdue : m.shouldRefreshToken with
    | false =>
      rw [refreshToken_of_fresh hr hdue] at hid
      exact .inl hid
    | true =>
      cases htok : m.defaults.refreshToken with
      | none =>
        rw [refreshToken_of_none hr hdue htok] at hid
        exact .inl hid
      | some token =>
        obtain ⟨u, request, hu, hq, h⟩ := refreshToken_started (F := F) hr hdue htok c'
        rw [h, Pool.find?_start] at hid
        split at hid
        · rename_i hnext
          cases hid
          exact .inr ⟨hnext, token, htok, u, hu, hq⟩
        · exact .inl hid

/-- A refresh exchange in flight after a step was so before, or was started by a call just made. -/
theorem sent_step {l : AuthLabel κ β} {out : List (Call κ β)} (h : step F m l = some (m', out)) {id : ℕ}
    {q : URLRequest} {c : RefreshCompletion κ β} (hid : m'.tasks.find? id = some (.refreshToken q c)) :
    m.tasks.find? id = some (.refreshToken q c) ∨
      ((∃ b, l = .refreshToken b) ∨ ∃ k, l = .validateToke k) ∧ JustSent F m id q := by
  cases l with
  | generateToken code b =>
    obtain ⟨request, heq⟩ := generateToken_eq (F := F) (m := m) code b
    rw [step, heq] at h
    cases h
    rw [Pool.find?_start] at hid
    split at hid
    · cases hid
    · exact .inl hid
  | refreshToken b =>
    have hm' : (m.refreshToken F (.caller b)).1 = m' := congrArg Prod.fst (Option.some.inj h)
    rw [← hm'] at hid
    exact (refreshToken_sent hid).imp_right fun hsent => ⟨.inl ⟨b, rfl⟩, hsent⟩
  | validateToke k =>
    have hm' : (m.validateToke F k).1 = m' := congrArg Prod.fst (Option.some.inj h)
    rw [← hm'] at hid
    cases hr : m.isRefreshing with
    | true =>
      rw [validateToke_of_refreshing hr] at hid
      exact .inl hid
    | false =>
      cases hdue : m.shouldRefreshToken with
      | false =>
        rw [validateToke_of_fresh hr hdue] at hid
        exact .inl hid
      | true =>
        rw [validateToke_of_due hr hdue] at hid
        exact (refreshToken_sent hid).imp_right fun hsent => ⟨.inr ⟨k, rfl⟩, hsent⟩
  | signout b =>
    cases h
    exact .inl hid
  | response task o =>
    obtain ⟨ex, -, h⟩ := Option.map_eq_some_iff.mp h
    have htasks := handler_tasks (m := { m with tasks := m.tasks.finish task }) o ex
    rw [h] at htasks
    rw [htasks] at hid
    exact .inl (Pool.find?_finish_eq_some.mp hid).2
  | tick t =>
    cases h
    exact .inl hid

theorem sent_note_of_ne {g : Sessions} {l : AuthLabel κ β} {id : ℕ} (hne : id ≠ m.tasks.next) :
    (Sessions.note m l g).sent id = g.sent id := by
  cases l with
  | refreshToken | validateToke => exact Function.update_of_ne hne ..
  | generateToken | signout | tick => rfl
  | response task o =>
    cases o with
    | networkError | undecodable => rfl
    | decoded r =>
      rw [Sessions.note]
      split <;> rfl

theorem Sent.step {d : UserDefaults} {g : Sessions} {l : AuthLabel κ β} {out : List (Call κ β)}
    (hs : Stores d (m, g)) (h : Sent F d (m, g)) (hl : AuthenticationManager.step F m l = some (m', out)) :
    Sent F d (m', Sessions.note m l g) := by
  intro id q c hid
  rcases sent_step hl hid with hold | ⟨hcall, hnext, token, htoken, hq⟩
  · rw [sent_note_of_ne (Nat.ne_of_lt (Pool.find?_lt hold))]
    exact h id q c hold
  · refine ⟨token, ?_, hq⟩
    have hnote : (Sessions.note m l g).sent id = g.refreshToken := by
      subst hnext
      rcases hcall with ⟨b, rfl⟩ | ⟨k, rfl⟩ <;> exact Function.update_self ..
    rw [hnote, ← hs.refreshToken]
    exact htoken

theorem latestDone_effect {g : Sessions} {l : AuthLabel κ β} {out : List (Call κ β)}
    (h : LatestDone (m, g)) (he : Effect m l m' out) : LatestDone (m', Sessions.note m l g) := by
  have stays : ∀ id, g.latest = .login id → m'.tasks.find? id = none ∧ id < m'.tasks.next :=
    fun id hid => ⟨he.find?_none (h id hid).1 (h id hid).2,
      Nat.lt_of_lt_of_le (h id hid).2 he.next_le⟩
  cases he with
  | loginStarted | refreshReturned | queued | delivered | dropped | signedOut | ticked => exact stays
  | refreshStarted _ _ _ hl => rcases hl with ⟨b, rfl, -⟩ | ⟨k, rfl, -⟩ <;> exact stays
  | loginSucceeded id r q c hid =>
    intro id' hid'
    simp only [Sessions.note, hid, Session.login.injEq] at hid'
    subst hid'
    exact ⟨by simp [Pool.find?_finish], show id < m.tasks.next from Pool.find?_lt hid⟩
  | loginFailed id o q c hid ho | refreshFailed id o q c hid ho =>
    rw [Sessions.note_of_not_decoded ho]
    exact stays
  | refreshSucceeded id r q c hid =>
    intro id' hid'
    simp only [Sessions.note, hid] at hid'
    exact stays id' hid'

/-- An answer that keeps the session keeps the keys together. -/
theorem unmixed_effect {g : Sessions} {l : AuthLabel κ β} {out : List (Call κ β)}
    (h : Unmixed (m, g)) (hg : KeepsSession (m, g) l) (he : Effect m l m' out) :
    Unmixed (m', Sessions.note m l g) := by
  obtain ⟨ha, hr, hx⟩ := h
  cases he with
  | loginStarted | refreshReturned | queued | delivered | dropped | ticked => exact ⟨ha, hr, hx⟩
  | refreshStarted _ _ _ hl => rcases hl with ⟨b, rfl, -⟩ | ⟨k, rfl, -⟩ <;> exact ⟨ha, hr, hx⟩
  | signedOut c => exact ⟨fun h => absurd rfl h, fun h => absurd rfl h, fun h => absurd rfl h⟩
  | loginFailed id o q c hid ho | refreshFailed id o q c hid ho =>
    rw [Sessions.note_of_not_decoded ho]
    exact ⟨ha, hr, hx⟩
  | loginSucceeded id r q c hid =>
    have hone := (hg id r rfl).1 q c hid
    simp only [Unmixed, Sessions.note, hid, Sessions.answered, Origin.session_answer]
    refine ⟨fun _ => trivial, fun hp => ?_, fun _ => trivial⟩
    rcases hone with hsome | hnone
    · rw [if_pos (Option.isSome_iff_ne_none.mpr hsome), Origin.session_answer]
    · cases hrr : r.refreshToken with
      | some token => rfl
      | none => exact absurd ((refreshToken_cacheToken_of_none hrr _).trans hnone) hp
  | refreshSucceeded id r q c hid =>
    have hsent : (g.sent id).session = g.latest := (hg id r rfl).2 q c hid
    simp only [Unmixed, Sessions.note, hid, Sessions.answered, hsent, Origin.session_answer]
    refine ⟨fun _ => trivial, fun hp => ?_, fun _ => trivial⟩
    cases hrr : r.refreshToken with
    | some token => rfl
    | none => exact hr (by rwa [refreshToken_cacheToken_of_none hrr] at hp)

/-- Any other answer mixes two sessions. -/
theorem keepsSession_of_unmixed {g : Sessions} {l : AuthLabel κ β} {out : List (Call κ β)}
    (h : Unmixed (m, g)) (hdone : LatestDone (m, g)) (he : Effect m l m' out)
    (h' : Unmixed (m', Sessions.note m l g)) : KeepsSession (m, g) l := by
  rintro id r rfl
  have hd := he.defaults_of_decoded
  constructor
  · intro q c hid
    by_contra hno
    rw [not_or, not_not] at hno
    obtain ⟨hrr, hp⟩ := hno
    -- the old refresh token stays and belongs to the previous login
    have hkept : m'.defaults.refreshToken ≠ none := by
      rw [hd, refreshToken_cacheToken_of_none hrr]
      exact hp
    have hold := h'.2.1 hkept
    simp only [Sessions.note, hid, Sessions.answered, hrr, Option.isSome_none,
      Bool.false_eq_true, if_false] at hold
    have hgone := (hdone id ((h.2.1 hp).symm.trans hold)).1
    rw [hid] at hgone
    cases hgone
  · intro q c hid
    have hacc := h'.1 (by rw [hd]; simp)
    simpa only [Sessions.note, hid, Sessions.answered, Origin.session_answer] using hacc

/-- **When the store never mixes two logins.**  In every run from launch each stored value is the field of the
decoded response that its note names, or was there at launch, and each refresh exchange has sent the refresh
token that its note names.  Every key present belongs to the most recently completed login, in every state, if
and only if every decoded answer of a login carries a refresh token or finds none stored, and every decoded
answer of a refresh comes while the login whose refresh token it sent is still the most recent one. -/
theorem unmixed_iff (F : Foundation) (d : UserDefaults) (t : Date) (ls : List (AuthLabel κ β)) :
    Runs.Always (tagged F) (fun s => Stores d s ∧ Sent F d s) (launch d t, Sessions.launch) ls ∧
    (Runs.Always (tagged F) Unmixed (launch d t, Sessions.launch) ls ↔
      Runs.EachStep (tagged F) (fun s l _ => KeepsSession s l) (launch d t, Sessions.launch) ls) := by
  constructor
  · intro p s _ hs
    refine Runs.exec_inv (I := fun s => Stores d s ∧ Sent F d s) ?_ ⟨⟨rfl, rfl, rfl⟩, ?_⟩ hs
    · rintro ⟨m, g⟩ l ⟨m', g'⟩ ⟨hstores, hsent⟩ hl
      obtain ⟨hl, rfl⟩ := Runs.annotated_eq_some.mp hl
      obtain ⟨out, hl⟩ := Runs.silent_eq_some.mp hl
      exact ⟨stores_effect hstores (step_effect hl), hsent.step hstores hl⟩
    · exact fun id q c h => (nomatch h)
  refine Runs.always_iff_eachStep (I := fun s => Unmixed s ∧ LatestDone s) (fun _ h => h.1) ?_ ?_ ?_
  · rintro ⟨m, g⟩ l ⟨m', g'⟩ ⟨h, hdone⟩ hg hl
    obtain ⟨hl, rfl⟩ := Runs.annotated_eq_some.mp hl
    obtain ⟨out, he⟩ := next_effect hl
    exact ⟨unmixed_effect h hg he, latestDone_effect hdone he⟩
  · rintro ⟨m, g⟩ l ⟨m', g'⟩ ⟨h, hdone⟩ hl h'
    obtain ⟨hl, rfl⟩ := Runs.annotated_eq_some.mp hl
    obtain ⟨out, he⟩ := next_effect hl
    exact keepsSession_of_unmixed h hdone he h'
  · exact ⟨⟨fun _ => rfl, fun _ => rfl, fun _ => rfl⟩, fun id hid => by cases hid⟩

def loginResponse (accessToken : String) (refreshToken : Option String) : AuthenticationResponse :=
  ⟨accessToken, 3600, refreshToken, "user-read-private", "Bearer"⟩

/-- The second login is answered while a refresh of the first account is in flight. -/
def lateRefresh : List (AuthLabel ℕ ℕ) :=
  [.validateToke 1, .generateToken "second" 2, .response 1 (.decoded (loginResponse "B" (some "RB"))),
    .response 0 (.decoded (loginResponse "A" none))]

/-- The response of the second login carries no refresh token. -/
def bareLogin : List (AuthLabel ℕ ℕ) :=
  [.generateToken "first" 1, .response 0 (.decoded (loginResponse "A" (some "RA"))),
    .generateToken "second" 2, .response 1 (.decoded (loginResponse "B" none))]

/-- An access token of one account is stored beside the refresh token of the other. -/
theorem logins_mix :
    ¬ Runs.Always (tagged Foundation.ascii) Unmixed (launch dueStore 1000, Sessions.launch) lateRefresh ∧
    (Runs.exec (next Foundation.ascii) (launch dueStore 1000) lateRefresh).map
      (fun m => (m.defaults.accessToken, m.defaults.refreshToken)) = some (some "A", some "RB") ∧
    ¬ Runs.Always (tagged Foundation.ascii) Unmixed (launch UserDefaults.empty 1000, Sessions.launch)
      bareLogin ∧
    (Runs.exec (next Foundation.ascii) (launch UserDefaults.empty 1000) bareLogin).map
      (fun m => (m.defaults.accessToken, m.defaults.refreshToken)) = some (some "B", some "RA") :=
  ⟨Runs.not_always_of_exec (by decide +kernel), by decide +kernel,
    Runs.not_always_of_exec (by decide +kernel), by decide +kernel⟩

end Spotify.AuthenticationManager
