import Spotify.Api.Client

/-!
# Spotify.Search.ViewModel — `SearchViewModel` and the screen that renders it

The view model keeps the last decoded response in three fields and issues one call of the client for
each text that the debounce lets through; `searches` holds the calls that were issued and not answered,
numbered in issue order.  The screen observes the relays on the main scheduler: an event sent from the
main thread is delivered at once while nothing is queued there, any other waits in `mainQueue`.
-/

namespace Spotify

structure SearchViewModel where
  isLoading : Bool
  artist : Option ArtistsResponse
  artistArray : Option (List Artist)
  artistResponse : Option ArtistsSearchResponse
  /-- the text that the debounce holds back -/
  searchText : Option String
  searches : Pool String
  deriving DecidableEq

/-- The events of the relays that the screen binds. -/
inductive RelayEvent where
  | isLoading (value : Bool)
  | onError (error : APIError)
  | reload
  deriving DecidableEq

namespace SearchViewModel

def launch : SearchViewModel := ⟨false, none, none, none, none, Pool.empty⟩

def numberOfItems (vm : SearchViewModel) : ℕ :=
  match vm.artist with
  | none => 0
  | some artist => artist.items.length

/-- `artist(at:)`, `none` where it traps. -/
def artistAt (vm : SearchViewModel) (index : ℕ) : Option Artist :=
  match vm.artist with
  | none => none
  | some artist => artist.items[index]?

def getArtists (text : String) (vm : SearchViewModel) : SearchViewModel :=
  { vm with searches := vm.searches.start text }

/-- The completion that `getArtists` passes to the client, with the events it sends. -/
def getArtistsCompletion (result : Except APIError ArtistsSearchResponse) (vm : SearchViewModel) :
    SearchViewModel × List RelayEvent :=
  let vm := { vm with isLoading := false }
  match result with
  | .ok model =>
    ({ vm with
      artist := model.artists
      artistArray := model.artists.map ArtistsResponse.items
      artistResponse := some model }, [.isLoading false, .reload])
  | .error error => (vm, [.isLoading false, .onError error])

/-- The subscription of `searchText`, run when the debounce lets `text` through. -/
def searchTextEmitted (text : String) (vm : SearchViewModel) : SearchViewModel × List RelayEvent :=
  let vm := { vm with isLoading := true, searchText := none }
  if text = "" then
    (({ vm with artistArray := some [] } : SearchViewModel).getArtists text, [.isLoading true, .reload])
  else (vm.getArtists text, [.isLoading true])

end SearchViewModel

/-- The screen: its view model, the events queued for the main thread, what the loader and the alerts
show, and the number of rows that the collection view read last. -/
structure SearchViewController where
  viewModel : SearchViewModel
  mainQueue : List RelayEvent
  loader : Bool
  alerts : List APIError
  rows : ℕ
  deriving DecidableEq

/-- `searchText.replacingOccurrences(of: " ", with: "%20")` -/
def replacingSpaces (searchText : String) : String :=
  String.ofList (searchText.toList.flatMap fun c => if c = ' ' then "%20".toList else [c])

inductive SearchLabel where
  | textDidChange (searchText : String)
  /-- the debounce interval of the last text is over -/
  | debounce
  | response (search : ℕ) (result : Except APIError ArtistsSearchResponse)
  /-- the main thread takes the first event of its queue -/
  | main
  deriving DecidableEq

/-- What a tap on a row does. -/
inductive Selection where
  | ignored
  | trapped
  | opened (artist : Artist)
  deriving DecidableEq

namespace SearchViewController

def launch : SearchViewController := ⟨SearchViewModel.launch, [], false, [], 0⟩

def reloadData (s : SearchViewController) : SearchViewController :=
  { s with rows := s.viewModel.numberOfItems }

/-- The bindings of `activateBindings`. -/
def deliver (s : SearchViewController) : RelayEvent → SearchViewController
  | .isLoading value => { s with loader := value }
  | .onError error => { s with alerts := s.alerts ++ [error] }
  | .reload => s.reloadData

/-- `observe(on: MainScheduler.instance)` -/
def observe (onMain : Bool) (s : SearchViewController) (e : RelayEvent) : SearchViewController :=
  if onMain ∧ s.mainQueue = [] then s.deliver e else { s with mainQueue := s.mainQueue ++ [e] }

/-- Take over a view model that was changed, and observe the events it sent. -/
def update (onMain : Bool) (s : SearchViewController) (r : SearchViewModel × List RelayEvent) :
    SearchViewController :=
  r.2.foldl (observe onMain) { s with viewModel := r.1 }

def textDidChange (searchText : String) (s : SearchViewController) : SearchViewController :=
  let text := replacingSpaces searchText
  if searchText = "" then
    let s := { s with viewModel := { s.viewModel with searchText := some "" } }
    { s with viewModel := { s.viewModel with artistArray := some [] } }.reloadData
  else { s with viewModel := { s.viewModel with searchText := some text } }

def didSelectItemAt (s : SearchViewController) (row : ℕ) : Selection :=
  match s.viewModel.artistArray with
  | none => .ignored
  | some artistArray =>
    match artistArray[row]? with
    | none => .trapped
    | some artist => .opened artist

/-- One step.  The debounce fires on the main thread, the client answers on another one; only a search
that was issued and not answered can be answered. -/
def step (s : SearchViewController) : SearchLabel → Option SearchViewController
  | .textDidChange searchText => some (s.textDidChange searchText)
  | .debounce => s.viewModel.searchText.map fun text => s.update true (s.viewModel.searchTextEmitted text)
  | .response search result =>
    (s.viewModel.searches.find? search).map fun _ =>
      let vm := { s.viewModel with searches := s.viewModel.searches.finish search }
      s.update false (vm.getArtistsCompletion result)
  | .main =>
    match s.mainQueue with
    | [] => none
    | e :: queue => some ({ s with mainQueue := queue }.deliver e)

/-! ### What a step can do -/

/-- The effects of a step on the view model. -/
inductive Effect (vm : SearchViewModel) : SearchLabel → SearchViewModel → Prop
  | cleared : Effect vm (.textDidChange "") { vm with searchText := some "", artistArray := some [] }
  | typed (text : String) (ht : text ≠ "") :
      Effect vm (.textDidChange text) { vm with searchText := some (replacingSpaces text) }
  | issued (text : String) (hp : vm.searchText = some text) (ht : text ≠ "") :
      Effect vm .debounce
        { vm with isLoading := true, searchText := none, searches := vm.searches.start text }
  | issuedEmpty (hp : vm.searchText = some "") :
      Effect vm .debounce
        { vm with isLoading := true, searchText := none, artistArray := some []
                  searches := vm.searches.start "" }
  | succeeded (search : ℕ) (model : ArtistsSearchResponse) (text : String)
      (hs : vm.searches.find? search = some text) :
      Effect vm (.response search (.ok model))
        { vm with searches := vm.searches.finish search, isLoading := false, artist := model.artists
                  artistArray := model.artists.map ArtistsResponse.items
                  artistResponse := some model }
  | failed (search : ℕ) (error : APIError) (text : String)
      (hs : vm.searches.find? search = some text) :
      Effect vm (.response search (.error error))
        { vm with searches := vm.searches.finish search, isLoading := false }
  | delivered : Effect vm .main vm

variable {s s' : SearchViewController}

@[simp] theorem viewModel_deliver (e : RelayEvent) : (s.deliver e).viewModel = s.viewModel := by
  cases e <;> rfl

@[simp] theorem viewModel_observe (onMain : Bool) (e : RelayEvent) :
    (s.observe onMain e).viewModel = s.viewModel := by
  unfold observe
  split
  · exact viewModel_deliver e
  · rfl

theorem viewModel_foldl_observe (onMain : Bool) (es : List RelayEvent) :
    (es.foldl (observe onMain) s).viewModel = s.viewModel := by
  induction es generalizing s with
  | nil => rfl
  | cons e es ih => rw [List.foldl_cons, ih, viewModel_observe]

@[simp] theorem viewModel_update (onMain : Bool) (r : SearchViewModel × List RelayEvent) :
    (s.update onMain r).viewModel = r.1 := viewModel_foldl_observe onMain r.2

/-- **What a step does to the view model.** -/
theorem step_effect {l : SearchLabel} (h : s.step l = some s') :
    Effect s.viewModel l s'.viewModel := by
  cases l with
  | textDidChange text =>
    cases h
    unfold textDidChange
    by_cases ht : text = ""
    · subst ht
      exact .cleared
    · rw [if_neg ht]
      exact .typed text ht
  | debounce =>
    obtain ⟨text, hp, rfl⟩ := Option.map_eq_some_iff.mp h
    rw [viewModel_update]
    by_cases ht : text = ""
    · subst ht
      exact .issuedEmpty hp
    · rw [SearchViewModel.searchTextEmitted, if_neg ht]
      exact .issued text hp ht
  | response search result =>
    obtain ⟨text, hs, rfl⟩ := Option.map_eq_some_iff.mp h
    rw [viewModel_update]
    cases result with
    | ok model => exact .succeeded search model text hs
    | error error => exact .failed search error text hs
  | main =>
    simp only [step] at h
    split at h
    · cases h
    · cases h
      rw [viewModel_deliver]
      exact .delivered

end SearchViewController

end Spotify
