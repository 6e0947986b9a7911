import Spotify.Api.Requests
import Spotify.Api.Bodies
import Spotify.Rx.Debounce
import Spotify.Search.Settled
import Spotify.Album.Screen
import Spotify.Lib.Refinement

/-!
# Spotify.Browse.App — searching and browsing albums, with everything below

The search screen and the album screens pushed over it share the client, the main thread and its queue.
A text goes to the `debounce` operator, whose timers run on the main thread; what it emits is searched for.
Each call of the client keeps the closure it was given: `calls` lists the endpoints called, each with the
owner of its closure.  `mainQueue` says in which order the screens' queued events come; a screen that was
popped is gone, and its closures and events with it.
-/

namespace Spotify

/-- Whose completion a call of the client carries: the search view model's, for one of its searches, or
that of an album screen. -/
inductive Owner where
  | search (search : ℕ)
  | album (screen : ℕ)
  deriving DecidableEq

/-- Whose event waits in the main queue. -/
inductive EventOwner where
  | search
  | album (screen : ℕ)
  deriving DecidableEq

structure BrowseApp (β : Type) where
  client : APIClient β
  debounce : DebounceSink String
  search : SearchViewController
  screens : Pool ArtistAlbumViewController
  calls : List (Endpoint × Owner)
  mainQueue : List EventOwner

/-- What the user and the system do to an album screen. -/
inductive AlbumAction where
  | viewDidLoad
  | layout
  | viewForSupplementaryElement
  | didSelectItemAt (row : ℕ)
  deriving DecidableEq

def AlbumAction.label (idle : Bool) : AlbumAction → AlbumLabel
  | .viewDidLoad => .viewDidLoad idle
  | .layout => .layout
  | .viewForSupplementaryElement => .viewForSupplementaryElement idle
  | .didSelectItemAt row => .didSelectItemAt row idle

inductive BrowseLabel (β : Type) where
  | textDidChange (searchText : String)
  | fire (timer : ℕ)
  | propagate (timer : ℕ)
  | uptime (now : Date)
  | auth (l : AuthLabel APICall β)
  | response (task : ℕ) (outcome : Outcome Payload)
  /-- the main thread takes the first event of its queue -/
  | main
  /-- a row of the search screen is tapped -/
  | didSelectItemAt (row : ℕ)
  | album (screen : ℕ) (action : AlbumAction)
  /-- the album screen is popped -/
  | backButtonTapped (screen : ℕ)

namespace BrowseApp

variable {β : Type} (F : Foundation) (formatted : Int → String)

/-- `.milliseconds(250)` -/
def dueTime : TimeInterval := 1 / 4

def launch (d : UserDefaults) (t uptime : Date) : BrowseApp β :=
  ⟨APIClient.launch d t, DebounceSink.launch uptime, SearchViewController.launch, Pool.empty, [], []⟩

/-- Nothing is queued for the main thread. -/
def idle (s : BrowseApp β) : Bool := s.mainQueue.isEmpty

/-- Take over the search screen; what it queued comes after the events of all screens. -/
def withSearch (search : SearchViewController) (s : BrowseApp β) : BrowseApp β :=
  { s with
    search := search
    mainQueue := s.mainQueue ++
      List.replicate (search.mainQueue.length - s.search.mainQueue.length) .search }

/-- Take over an album screen. -/
def withScreen (k : ℕ) (old new : ArtistAlbumViewController) (s : BrowseApp β) : BrowseApp β :=
  { s with
    screens := s.screens.update k fun _ => new
    mainQueue := s.mainQueue ++ List.replicate (new.mainQueue.length - old.mainQueue.length) (.album k) }

/-- A call of the client with the closure of `owner`. -/
def call (endpoint : Endpoint) (owner : Owner) (s : BrowseApp β) : Option (BrowseApp β) :=
  (s.client.step F (.call endpoint)).map fun client =>
    { s with client := client, calls := s.calls ++ [(endpoint, owner)] }

/-- The subscription of `searchText`, for each text that passes the debounce. -/
def searchTextEmitted (text : String) (s : BrowseApp β) : Option (BrowseApp β) :=
  let search := s.search.viewModel.searches.next
  (s.withSearch (s.search.update s.idle (s.search.viewModel.searchTextEmitted text))).call F
    (.getartistProfile text) (.search search)

/-- The texts that a step of the debounce lets through. -/
def emitted (out : List (Passage String)) : Option String :=
  out.findSome? fun
    | .emitted text _ => some text
    | .accepted _ _ => none

/-- The text that the action of a timer lets through. -/
def passes (timer : ℕ) (s : BrowseApp β) : Option String :=
  (s.debounce.step dueTime (.propagate timer)).bind fun r => emitted r.2

/-- A step of the debounce on the main thread, and what its subscriber does. -/
def runDebounce (l : DebounceLabel String) (s : BrowseApp β) : Option (BrowseApp β) :=
  match s.debounce.step dueTime l with
  | none => none
  | some (debounce, out) =>
    let s := { s with debounce := debounce }
    match emitted out with
    | none => some s
    | some text => s.searchTextEmitted F text

/-- The text that the search bar hands to the relay. -/
def encoded (searchText : String) : String := if searchText = "" then "" else replacingSpaces searchText

/-- The search bar hands its text to the relay and, when it is empty, empties the list. -/
def textDidChange (searchText : String) (s : BrowseApp β) : Option (BrowseApp β) :=
  ({ s with search := s.search.textDidChange searchText } : BrowseApp β).runDebounce F
    (.next (encoded searchText))

/-- The completion of a call; those of screens that are gone do nothing. -/
def complete (owner : Owner) (result : Except APIError Payload) (s : BrowseApp β) : BrowseApp β :=
  match owner with
  | .search search =>
    match artistsResult result with
    | none => s
    | some result =>
      let vm := { s.search.viewModel with searches := s.search.viewModel.searches.finish search }
      s.withSearch (s.search.update false (vm.getArtistsCompletion result))
  | .album k =>
    match s.screens.find? k, albumResult result with
    | some screen, some result => s.withScreen k screen (screen.answer result)
    | _, _ => s

/-- The handler of a data task. -/
def response (task : ℕ) (outcome : Outcome Payload) (s : BrowseApp β) : Option (BrowseApp β) :=
  match s.client.tasks.find? task, s.client.step F (.response task outcome) with
  | some t, some client =>
    match s.calls[t.call.id]? with
    | none => none
    | some (_, owner) =>
      some (({ s with client := client } : BrowseApp β).complete owner (t.call.endpoint.handler outcome))
  | _, _ => none

/-- The main thread takes the first event of its queue. -/
def main (s : BrowseApp β) : Option (BrowseApp β) :=
  match s.mainQueue with
  | [] => none
  | .search :: queue =>
    (s.search.step .main).map fun search => { s with search := search, mainQueue := queue }
  | .album k :: queue =>
    match s.screens.find? k with
    | none => some { s with mainQueue := queue }
    | some screen =>
      (screen.step F .main).map fun new =>
        { s with screens := s.screens.update k fun _ => new, mainQueue := queue }

/-- A tap on a row of the search screen, `none` where it traps. -/
def didSelectItemAt (row : ℕ) (s : BrowseApp β) : Option (BrowseApp β) :=
  match s.search.didSelectItemAt row with
  | .ignored => some s
  | .trapped => none
  | .opened artist =>
    let screen := ArtistAlbumViewController.launch formatted artist
    ({ s with screens := s.screens.start screen } : BrowseApp β).call F screen.viewModel.endpoint
      (.album s.screens.next)

/-- One step; the client is called by the screens only. -/
def step (s : BrowseApp β) : BrowseLabel β → Option (BrowseApp β)
  | .textDidChange searchText => s.textDidChange F searchText
  | .fire timer => s.runDebounce F (.fire timer)
  | .propagate timer => s.runDebounce F (.propagate timer)
  | .uptime now => s.runDebounce F (.tick now)
  | .auth l => (s.client.step F (.auth l)).map fun client => { s with client := client }
  | .response task outcome => s.response F task outcome
  | .main => s.main F
  | .didSelectItemAt row => if row < s.search.rows then s.didSelectItemAt F formatted row else none
  | .album k action =>
    match s.screens.find? k with
    | none => none
    | some screen => (screen.step F (action.label s.idle)).map fun new => s.withScreen k screen new
  | .backButtonTapped k =>
    match s.screens.find? k with
    | none => none
    | some _ => some { s with screens := s.screens.finish k }

/-- The step of the debounce that a label is. -/
def debounceLabel : BrowseLabel β → Option (DebounceLabel String)
  | .textDidChange searchText => some (.next (encoded searchText))
  | .fire timer => some (.fire timer)
  | .propagate timer => some (.propagate timer)
  | .uptime now => some (.tick now)
  | _ => none

/-- A search, a tap on the artist that it found, and the albums of that artist. -/
def browsed : List (BrowseLabel ℕ) :=
  [.textDidChange "a b", .uptime (1 / 4), .fire 0, .propagate 0,
    .response 0 (.decoded (.artists (SearchViewController.found "AB"))), .main, .main, .didSelectItemAt 0,
    .album 0 .viewDidLoad, .response 1 (.decoded (.album ArtistAlbumViewController.twoAlbums)), .main,
    .album 0 .layout, .album 0 (.didSelectItemAt 0)]

/-- Signed in. -/
def signedIn : UserDefaults := ⟨some "access", some "refresh", some 9000, none⟩

/-! ### What a step can do -/

/-- The effects of a step, one constructor for each kind. -/
inductive Effect (s : BrowseApp β) : BrowseLabel β → BrowseApp β → Prop
  | typed (text : String) :
      Effect s (.textDidChange text)
        { s with
          search := s.search.textDidChange text
          debounce := s.debounce.synchronizedOn dueTime (encoded text) }
  | quiet (l : BrowseLabel β) (dl : DebounceLabel String) (debounce : DebounceSink String)
      (out : List (Passage String)) (hl : debounceLabel l = some dl) (hin : DebounceSink.incoming dl = none)
      (hd : s.debounce.step dueTime dl = some (debounce, out)) (hem : emitted out = none)
      (hv : debounce.value = s.debounce.value) :
      Effect s l { s with debounce := debounce }
  | searched (k : ℕ) (text : String) (debounce : DebounceSink String) (out : List (Passage String))
      (client : APIClient β) (hd : s.debounce.step dueTime (.propagate k) = some (debounce, out))
      (hem : emitted out = some text) (hv : s.debounce.value = some text) (hv' : debounce.value = none)
      (hc : s.client.step F (.call (.getartistProfile text)) = some client) :
      Effect s (.propagate k)
        { ({ s with debounce := debounce } : BrowseApp β).withSearch
            (s.search.update s.idle (s.search.viewModel.searchTextEmitted text)) with
          client := client
          calls := s.calls ++ [(.getartistProfile text, .search s.search.viewModel.searches.next)] }
  | auth (l : AuthLabel APICall β) (client : APIClient β) (hc : s.client.step F (.auth l) = some client) :
      Effect s (.auth l) { s with client := client }
  | answered (task : ℕ) (t : DataTask) (outcome : Outcome Payload) (client : APIClient β)
      (endpoint : Endpoint) (owner : Owner) (ht : s.client.tasks.find? task = some t)
      (hc : s.client.step F (.response task outcome) = some client)
      (hcall : s.calls[t.call.id]? = some (endpoint, owner)) :
      Effect s (.response task outcome)
        (({ s with client := client } : BrowseApp β).complete owner (t.call.endpoint.handler outcome))
  | mainSearch (queue : List EventOwner) (search : SearchViewController)
      (hq : s.mainQueue = .search :: queue) (h : s.search.step .main = some search) :
      Effect s .main { s with search := search, mainQueue := queue }
  | mainGone (k : ℕ) (queue : List EventOwner) (hq : s.mainQueue = .album k :: queue)
      (h : s.screens.find? k = none) : Effect s .main { s with mainQueue := queue }
  | mainAlbum (k : ℕ) (queue : List EventOwner) (screen new : ArtistAlbumViewController)
      (hq : s.mainQueue = .album k :: queue) (hk : s.screens.find? k = some screen)
      (h : screen.step F .main = some new) :
      Effect s .main { s with screens := s.screens.update k fun _ => new, mainQueue := queue }
  | ignored (row : ℕ) : Effect s (.didSelectItemAt row) s
  | opened (row : ℕ) (artist : Artist) (client : APIClient β) (hrow : row < s.search.rows)
      (h : s.search.didSelectItemAt row = .opened artist)
      (hc : s.client.step F (.call (.getArtistAlbum artist.id)) = some client) :
      Effect s (.didSelectItemAt row)
        { s with
          screens := s.screens.start (ArtistAlbumViewController.launch formatted artist)
          client := client
          calls := s.calls ++ [(.getArtistAlbum artist.id, .album s.screens.next)] }
  | acted (k : ℕ) (action : AlbumAction) (screen new : ArtistAlbumViewController)
      (hk : s.screens.find? k = some screen) (h : screen.step F (action.label s.idle) = some new) :
      Effect s (.album k action) (s.withScreen k screen new)
  | popped (k : ℕ) (screen : ArtistAlbumViewController) (hk : s.screens.find? k = some screen) :
      Effect s (.backButtonTapped k) { s with screens := s.screens.finish k }

variable {F formatted} {s s' : BrowseApp β}

/-- A completion touches neither the client nor the calls nor the debounce. -/
theorem complete_frame (owner : Owner) (result : Except APIError Payload) :
    (s.complete owner result).client = s.client ∧ (s.complete owner result).calls = s.calls ∧
    (s.complete owner result).debounce = s.debounce := by
  unfold complete
  split <;> split <;> exact ⟨rfl, rfl, rfl⟩

theorem complete_search_none {search : ℕ} {result : Except APIError Payload} (h : artistsResult result = none) :
    s.complete (.search search) result = s := by
  unfold complete
  rw [h]

theorem complete_search {search : ℕ} {result : Except APIError Payload}
    {artists : Except APIError ArtistsSearchResponse} (h : artistsResult result = some artists) :
    s.complete (.search search) result = s.withSearch (s.search.update false
      (({ s.search.viewModel with searches := s.search.viewModel.searches.finish search } :
        SearchViewModel).getArtistsCompletion artists)) := by
  unfold complete
  rw [h]

/-- A step of the debounce that lets nothing through leaves its value; one that does empties it. -/
theorem debounce_cases {l : DebounceLabel String} {d d' : DebounceSink String}
    {out : List (Passage String)} (hl : DebounceSink.incoming l = none)
    (h : d.step dueTime l = some (d', out)) :
    (emitted out = none ∧ d'.value = d.value) ∨
      ∃ text, emitted out = some text ∧ d.value = some text ∧ d'.value = none ∧ ∃ k, l = .propagate k := by
  cases DebounceSink.step_effect h with
  | accepted text => cases hl
  | forgotten | started | stale | ticked => exact .inl ⟨rfl, rfl⟩
  | emitted k t hk hr text hv hid => exact .inr ⟨text, rfl, hv, rfl, k, rfl⟩

theorem runDebounce_inv {l : DebounceLabel String} (hl : DebounceSink.incoming l = none)
    (h : s.runDebounce F l = some s') :
    ∃ debounce out, s.debounce.step dueTime l = some (debounce, out) ∧
      ((emitted out = none ∧ debounce.value = s.debounce.value ∧ s' = { s with debounce := debounce }) ∨
      ∃ k text client, l = .propagate k ∧ emitted out = some text ∧ s.debounce.value = some text ∧
        debounce.value = none ∧ s.client.step F (.call (.getartistProfile text)) = some client ∧
        s' = { ({ s with debounce := debounce } : BrowseApp β).withSearch
            (s.search.update s.idle (s.search.viewModel.searchTextEmitted text)) with
          client := client
          calls := s.calls ++ [(.getartistProfile text, .search s.search.viewModel.searches.next)] }) := by
  unfold runDebounce at h
  cases hstep : s.debounce.step dueTime l with
  | none => rw [hstep] at h; cases h
  | some r =>
    obtain ⟨debounce, out⟩ := r
    rw [hstep] at h
    simp only at h
    refine ⟨debounce, out, rfl, ?_⟩
    rcases debounce_cases hl hstep with ⟨hem, hv⟩ | ⟨text, hem, hv, hv', k, hk⟩
    · rw [hem] at h
      cases h
      exact .inl ⟨hem, hv, rfl⟩
    · rw [hem] at h
      simp only [searchTextEmitted, call] at h
      obtain ⟨client, hc, rfl⟩ := Option.map_eq_some_iff.mp h
      exact .inr ⟨k, text, client, hk, hem, hv, hv', hc, rfl⟩

/-- **What a step can do.** -/
theorem step_effect {l : BrowseLabel β} (h : s.step F formatted l = some s') :
    Effect F formatted s l s' := by
  have timer : ∀ {dl : DebounceLabel String} {l : BrowseLabel β}, DebounceSink.incoming dl = none →
      debounceLabel l = some dl → (∀ k, dl = .propagate k → l = .propagate k) →
      s.runDebounce F dl = some s' → Effect F formatted s l s' := by
    intro dl l hin hl hprop h
    obtain ⟨debounce, out, hd, ⟨hem, hv, rfl⟩ | ⟨k, text, client, rfl, hem, hv, hv', hc, rfl⟩⟩ :=
      runDebounce_inv hin h
    · exact .quiet l dl debounce out hl hin hd hem hv
    · obtain rfl := hprop k rfl
      exact .searched k text debounce out client hd hem hv hv' hc
  cases l with
  | textDidChange text =>
    cases h
    exact .typed text
  | fire k => exact timer rfl rfl (fun _ h => by cases h) h
  | propagate k => exact timer rfl rfl (fun _ h => by cases h; rfl) h
  | uptime now => exact timer rfl rfl (fun _ h => by cases h) h
  | auth l =>
    obtain ⟨client, hc, rfl⟩ := Option.map_eq_some_iff.mp h
    exact .auth l client hc
  | response task outcome =>
    simp only [step, response] at h
    cases ht : s.client.tasks.find? task with
    | none => rw [ht] at h; cases h
    | some t =>
      cases hc : s.client.step F (.response task outcome) with
      | none => rw [ht, hc] at h; cases h
      | some client =>
        rw [ht, hc] at h
        simp only at h
        cases hcall : s.calls[t.call.id]? with
        | none => rw [hcall] at h; cases h
        | some c =>
          obtain ⟨endpoint, owner⟩ := c
          rw [hcall] at h
          cases h
          exact .answered task t outcome client endpoint owner ht hc hcall
  | main =>
    simp only [step, main] at h
    cases hq : s.mainQueue with
    | nil => rw [hq] at h; cases h
    | cons o queue =>
      rw [hq] at h
      cases o with
      | search =>
        obtain ⟨search, hs, rfl⟩ := Option.map_eq_some_iff.mp h
        exact .mainSearch queue search hq hs
      | album k =>
        simp only at h
        cases hk : s.screens.find? k with
        | none =>
          rw [hk] at h
          cases h
          exact .mainGone k queue hq hk
        | some screen =>
          rw [hk] at h
          obtain ⟨new, hnew, rfl⟩ := Option.map_eq_some_iff.mp h
          exact .mainAlbum k queue screen new hq hk hnew
  | didSelectItemAt row =>
    simp only [step] at h
    split_ifs at h with hrow
    unfold didSelectItemAt at h
    cases hsel : s.search.didSelectItemAt row with
    | ignored =>
      rw [hsel] at h
      cases h
      exact .ignored row
    | trapped => rw [hsel] at h; cases h
    | opened artist =>
      rw [hsel] at h
      obtain ⟨client, hc, rfl⟩ := Option.map_eq_some_iff.mp h
      exact .opened row artist client hrow hsel hc
  | album k action =>
    simp only [step] at h
    cases hk : s.screens.find? k with
    | none => rw [hk] at h; cases h
    | some screen =>
      rw [hk] at h
      obtain ⟨new, hnew, rfl⟩ := Option.map_eq_some_iff.mp h
      exact .acted k action screen new hk hnew
  | backButtonTapped k =>
    simp only [step] at h
    cases hk : s.screens.find? k with
    | none => rw [hk] at h; cases h
    | some screen =>
      rw [hk] at h
      cases h
      exact .popped k screen hk

end BrowseApp

end Spotify
