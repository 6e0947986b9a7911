import Spotify.Auth.Callers
import Spotify.Auth.Waiters

/-!
# Spotify.Api.Client — `APIClient` over the manager

The three calls differ in their URL and in what they make of a body that does not decode.  Each goes
through `createRequest`: the completion handed to `validateToke` starts the data task once a token is
there, unless `URL(string:)` returned `nil`.  The state holds the manager, the data tasks in flight and
the answers given so far; a call is known by the order in which it was made.
-/

namespace Spotify

inductive Endpoint where
  | getUserProfile
  | getartistProfile (artist : String)
  | getArtistAlbum (id : String)
  deriving DecidableEq

/-- What a body decodes to. -/
inductive Payload where
  | userProfile (result : UserProfile)
  | artists (result : ArtistsSearchResponse)
  | album (result : Album)
  deriving DecidableEq

inductive APIError where
  | failedFetchingData
  | custom (message : String)
  /-- the error thrown by the decoder -/
  | decoding
  /-- an error of another `UserProfileAPIClient`, by its description -/
  | other (localizedDescription : String)
  deriving DecidableEq

namespace Endpoint

def urlString : Endpoint → String
  | .getUserProfile => Constants.baseUrl ++ "/me"
  | .getartistProfile artist => Constants.baseUrl ++ "/search?q=" ++ artist ++ "&type=artist&limit=50"
  | .getArtistAlbum id => Constants.baseUrl ++ "/artists/" ++ id ++ "/albums"

/-- The answers that the endpoint's decoder can give. -/
def accepts : Endpoint → Outcome Payload → Bool
  | .getUserProfile, .decoded (.userProfile _) => true
  | .getartistProfile _, .decoded (.artists _) => true
  | .getArtistAlbum _, .decoded (.album _) => true
  | _, .decoded _ => false
  | _, _ => true

/-- The result that the data task's handler passes to the completion. -/
def handler : Endpoint → Outcome Payload → Except APIError Payload
  | _, .networkError => .error .failedFetchingData
  | .getUserProfile, .undecodable (some result) => .error (.custom result)
  | _, .undecodable _ => .error .decoding
  | _, .decoded result => .ok result

theorem handler_decoded (e : Endpoint) (result : Payload) : e.handler (.decoded result) = .ok result := by
  cases e <;> rfl

theorem handler_failed (e : Endpoint) {o : Outcome Payload} (ho : ∀ result, o ≠ .decoded result) :
    ∃ error, e.handler o = .error error := by
  cases o with
  | networkError => exact ⟨_, rfl⟩
  | undecodable text => cases e <;> cases text <;> exact ⟨_, rfl⟩
  | decoded result => exact absurd rfl (ho result)

end Endpoint

/-- A call of one of the three functions, with its place in the order of calls. -/
structure APICall where
  id : ℕ
  endpoint : Endpoint
  deriving DecidableEq

structure DataTask where
  call : APICall
  request : URLRequest
  deriving DecidableEq

/-- The closure of `createRequest`, up to the request it passes on. -/
def Foundation.apiRequest (F : Foundation) (call : APICall) (token : String) : Option URLRequest :=
  match F.url call.endpoint.urlString with
  | none => none
  | some url => some {
      url := url
      httpMethod := "GET"
      httpBody := none
      allHTTPHeaderFields := [("Accept", "application/json"), ("Content-Type", "application/json"),
        ("Authorization", "Bearer " ++ token)]
      timeoutInterval := some 30 }

/-- The client with the manager it uses. -/
structure APIClient (β : Type) where
  auth : AuthenticationManager APICall β
  tasks : Pool DataTask
  answers : List (ℕ × Except APIError Payload)
  nextCall : ℕ

inductive APILabel (β : Type) where
  | call (endpoint : Endpoint)
  | auth (l : AuthLabel APICall β)
  | response (task : ℕ) (outcome : Outcome Payload)

namespace APIClient

variable {β : Type} (F : Foundation)

/-- One completion that the manager calls: with a token, the data task is started. -/
def resumeOne (s : APIClient β) : Call APICall β → APIClient β
  | .token call token =>
    match F.apiRequest call token with
    | none => s
    | some request => { s with tasks := s.tasks.start ⟨call, request⟩ }
  | .success _ _ => s

def resume (s : APIClient β) (out : List (Call APICall β)) : APIClient β := out.foldl (resumeOne F) s

/-- A step of the manager, and what the completions it calls do. -/
def runAuth (s : APIClient β) (l : AuthLabel APICall β) : Option (APIClient β) :=
  (s.auth.step F l).map fun r => ({ s with auth := r.1 } : APIClient β).resume F r.2

def createRequest (endpoint : Endpoint) (s : APIClient β) : Option (APIClient β) :=
  ({ s with nextCall := s.nextCall + 1 } : APIClient β).runAuth F (.validateToke ⟨s.nextCall, endpoint⟩)

def getUserProfile (s : APIClient β) : Option (APIClient β) := s.createRequest F .getUserProfile

def getartistProfile (artist : String) (s : APIClient β) : Option (APIClient β) :=
  s.createRequest F (.getartistProfile artist)

def getArtistAlbum (id : String) (s : APIClient β) : Option (APIClient β) :=
  s.createRequest F (.getArtistAlbum id)

/-- One step; `validateToke` has no other caller than `createRequest`. -/
def step (s : APIClient β) : APILabel β → Option (APIClient β)
  | .call .getUserProfile => s.getUserProfile F
  | .call (.getartistProfile artist) => s.getartistProfile F artist
  | .call (.getArtistAlbum id) => s.getArtistAlbum F id
  | .auth (.validateToke _) => none
  | .auth l => s.runAuth F l
  | .response task outcome =>
    match s.tasks.find? task with
    | none => none
    | some t =>
      if t.call.endpoint.accepts outcome then
        some { s with
          tasks := s.tasks.finish task
          answers := s.answers ++ [(t.call.id, t.call.endpoint.handler outcome)] }
      else none

def launch (d : UserDefaults) (t : Date) : APIClient β :=
  ⟨AuthenticationManager.launch d t, Pool.empty, [], 0⟩

/-! ### What a step can do -/

/-- The step of the manager that a label runs. -/
def authLabel (s : APIClient β) : APILabel β → Option (AuthLabel APICall β)
  | .call endpoint => some (.validateToke ⟨s.nextCall, endpoint⟩)
  | .auth (.validateToke _) => none
  | .auth l => some l
  | .response _ _ => none

/-- The calls whose data task is in flight, and those answered. -/
def loading (s : APIClient β) : List ℕ := s.tasks.collect fun t => some t.call.id

def answered (s : APIClient β) : List ℕ := s.answers.map Prod.fst

/-- The completions called whose URL does not parse. -/
def unsent (out : List (Call APICall β)) : List APICall :=
  (AuthenticationManager.resumed out).filter fun k => F.url k.endpoint.urlString = none

variable {F} {s s' : APIClient β}

theorem apiRequest_eq_none {k : APICall} {token : String} :
    F.apiRequest k token = none ↔ F.url k.endpoint.urlString = none := by
  unfold Foundation.apiRequest
  cases F.url k.endpoint.urlString <;> simp

/-- Resuming starts the data tasks of the calls whose URL parses, and nothing else. -/
theorem resume_spec (s : APIClient β) (out : List (Call APICall β)) :
    (s.resume F out).auth = s.auth ∧ (s.resume F out).answers = s.answers ∧
    (s.resume F out).nextCall = s.nextCall ∧
    (s.resume F out).loading = s.loading ++
      ((AuthenticationManager.resumed out).filter
        fun k => ¬ F.url k.endpoint.urlString = none).map APICall.id := by
  induction out generalizing s with
  | nil => simp [resume]
  | cons o out ih =>
    obtain ⟨h1, h2, h3, h4⟩ := ih (resumeOne F s o)
    have hcons : s.resume F (o :: out) = (resumeOne F s o).resume F out := rfl
    rw [hcons, h1, h2, h3, h4]
    cases o with
    | success c b => exact ⟨rfl, rfl, rfl, rfl⟩
    | token k token =>
      cases hq : F.apiRequest k token with
      | none =>
        have hurl := apiRequest_eq_none.mp hq
        simp [resumeOne, hq, AuthenticationManager.resumed, hurl]
      | some request =>
        have hurl : F.url k.endpoint.urlString ≠ none := fun h => by
          rw [apiRequest_eq_none.mpr h] at hq
          cases hq
        simp [resumeOne, hq, AuthenticationManager.resumed, hurl, loading, Pool.collect_start]

theorem perm_unsent (out : List (Call APICall β)) :
    (AuthenticationManager.resumed out).Perm
      ((AuthenticationManager.resumed out).filter (fun k => ¬ F.url k.endpoint.urlString = none) ++
        unsent F out) := by
  refine (List.filter_append_perm (fun k => ¬ F.url k.endpoint.urlString = none) _).symm.trans ?_
  simp [unsent]

/-- A step runs the manager and resumes calls, or answers a call whose data task is in flight. -/
theorem step_inv {l : APILabel β} (h : s.step F l = some s') :
    (∃ la m out, s.authLabel l = some la ∧ s.auth.step F la = some (m, out) ∧
      s' = ({ s with
        auth := m
        nextCall := s.nextCall + (AuthenticationManager.callers [la]).length } : APIClient β).resume F out) ∨
    (∃ task t o, l = .response task o ∧ s.tasks.find? task = some t ∧
      s' = { s with
        tasks := s.tasks.finish task
        answers := s.answers ++ [(t.call.id, t.call.endpoint.handler o)] }) := by
  cases l with
  | call e =>
    have h' : ({ s with nextCall := s.nextCall + 1 } : APIClient β).runAuth F
        (.validateToke ⟨s.nextCall, e⟩) = some s' := by cases e <;> exact h
    obtain ⟨r, hr, h'⟩ := Option.map_eq_some_iff.mp h'
    exact .inl ⟨_, r.1, r.2, rfl, hr, h'.symm⟩
  | auth la =>
    cases la with
    | validateToke k => cases h
    | generateToken | refreshToken | signout | response | tick =>
      obtain ⟨r, hr, h'⟩ := Option.map_eq_some_iff.mp (show s.runAuth F _ = some s' from h)
      exact .inl ⟨_, r.1, r.2, rfl, hr, h'.symm⟩
  | response task o =>
    right
    simp only [step] at h
    cases ht : s.tasks.find? task with
    | none => rw [ht] at h; cases h
    | some t =>
      rw [ht] at h
      simp only at h
      split at h
      · cases h
        exact ⟨task, t, o, rfl, ht, rfl⟩
      · cases h

end APIClient

end Spotify
