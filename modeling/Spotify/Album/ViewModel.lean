import Spotify.Api.Client
import Spotify.Lib.Inbox

/-!
# Spotify.Album.ViewModel — `AlbumViewModel` and the screen that renders it

The view model makes its one call of the client when it is built, before its screen has loaded its view.
The subscriptions begin in `viewDidLoad`: what the relays send before is lost, save the last values of
`isLoading` and `headerModel`, which are sent to every new subscriber.  As on the search screen, an event
from the main thread is delivered at once while nothing is queued there.  The queue is shared with the other
screens, so the labels of such events say whether it is `idle` but for the events of this screen.
-/

namespace Spotify

structure AlbumHeaderModel where
  followersLabelText : String
  artistName : String
  artistImageUrl : Option String
  deriving DecidableEq

structure AlbumViewModel where
  isLoading : Bool
  headerModel : Option AlbumHeaderModel
  artist : Artist
  album : Option Album
  deriving DecidableEq

/-- The events of the relays that the screen binds. -/
inductive AlbumEvent where
  | isLoading (value : Bool)
  | onError (error : APIError)
  | openUrl (url : URL)
  | reload
  | headerModel (model : Option AlbumHeaderModel)
  deriving DecidableEq

namespace AlbumViewModel

def artistId (vm : AlbumViewModel) : String := vm.artist.id

def artistName (vm : AlbumViewModel) : String := vm.artist.name

def numberOfItems (vm : AlbumViewModel) : ℕ :=
  match vm.album with
  | none => 0
  | some album => album.items.length

/-- `formatted` is `SpotifyNumberFormatter.formattedNumberOfFollowers`. -/
def generateHeaderModel (formatted : Int → String) (vm : AlbumViewModel) : AlbumViewModel :=
  let numberOfFollowersText := match vm.artist.followers.bind Followers.total with
    | none => "-- followers"
    | some numberOfFollowers => formatted numberOfFollowers ++ " followers"
  { vm with headerModel := some {
      followersLabelText := numberOfFollowersText
      artistName := vm.artist.name
      artistImageUrl := (vm.artist.images.bind List.head?).bind ImageResponse.url } }

/-- `init(artist:)`; the call that `getArtistAlbum` makes is in `endpoint`. -/
def init (formatted : Int → String) (artist : Artist) : AlbumViewModel :=
  (⟨true, none, artist, none⟩ : AlbumViewModel).generateHeaderModel formatted

/-- The call of the client that `getArtistAlbum` makes. -/
def endpoint (vm : AlbumViewModel) : Endpoint := .getArtistAlbum vm.artistId

/-- The completion of that call, with the events it sends. -/
def getArtistAlbumCompletion (result : Except APIError Album) (vm : AlbumViewModel) :
    AlbumViewModel × List AlbumEvent :=
  let vm := { vm with isLoading := false }
  match result with
  | .ok album => ({ vm with album := some album }, [.isLoading false, .reload])
  | .error error => (vm, [.isLoading false, .onError error])

/-- `album(at:)`, `none` where it traps. -/
def albumAt (vm : AlbumViewModel) (index : ℕ) : Option AlbumResponse :=
  vm.album.bind fun album => album.items[index]?

/-- `didSelectAlbum(at:)`: the events it sends, `none` where it traps. -/
def didSelectAlbum (F : Foundation) (vm : AlbumViewModel) (index : ℕ) : Option (List AlbumEvent) :=
  match vm.album with
  | none => some []
  | some album =>
    match album.items[index]? with
    | none => none
    | some item =>
      match (item.externalUrls.lookup "spotify").bind F.url with
      | none => some []
      | some url => some [.openUrl url]

end AlbumViewModel

/-- The screen: its view model, whether the call of the client is still to be answered, whether the view has loaded,
the events queued for the main thread, what loader, alerts, pages and header show, and the number of rows
that the collection view read last. -/
structure ArtistAlbumViewController where
  viewModel : AlbumViewModel
  awaiting : Bool
  isViewLoaded : Bool
  mainQueue : List AlbumEvent
  loader : Bool
  alerts : List APIError
  opened : List URL
  rows : Option ℕ
  header : Option AlbumHeaderModel
  deriving DecidableEq

inductive AlbumLabel where
  | viewDidLoad (idle : Bool)
  /-- the collection view is laid out for the first time -/
  | layout
  | response (result : Except APIError Album)
  /-- the main thread takes the first event of its queue -/
  | main
  | viewForSupplementaryElement (idle : Bool)
  | didSelectItemAt (row : ℕ) (idle : Bool)
  deriving DecidableEq

namespace ArtistAlbumViewController

variable (F : Foundation) (formatted : Int → String)

/-- The screen of the artist whose row was tapped. -/
def launch (artist : Artist) : ArtistAlbumViewController :=
  ⟨AlbumViewModel.init formatted artist, true, false, [], false, [], [], none, none⟩

def reloadData (s : ArtistAlbumViewController) : ArtistAlbumViewController :=
  { s with rows := some s.viewModel.numberOfItems }

/-- The bindings of `activateBindings`, and that of the header view. -/
def deliver (s : ArtistAlbumViewController) : AlbumEvent → ArtistAlbumViewController
  | .isLoading value => { s with loader := value }
  | .onError error => { s with alerts := s.alerts ++ [error] }
  | .openUrl url => { s with opened := s.opened ++ [url] }
  | .reload => s.reloadData
  | .headerModel none => s
  | .headerModel (some model) => { s with header := some model }

/-- `observe(on: MainScheduler.instance)`; `idle` on the main thread, while no other screen's event is queued. -/
def observe (idle : Bool) (s : ArtistAlbumViewController) (e : AlbumEvent) :
    ArtistAlbumViewController :=
  if idle ∧ s.mainQueue = [] then s.deliver e else { s with mainQueue := s.mainQueue ++ [e] }

/-- The events that the relays send to the subscriptions of `activateBindings`, if there are any yet. -/
def send (idle : Bool) (s : ArtistAlbumViewController) (es : List AlbumEvent) :
    ArtistAlbumViewController :=
  if s.isViewLoaded then es.foldl (observe idle) s else s

/-- `activateBindings`; `isLoading` sends its value to the new subscriber. -/
def viewDidLoad (idle : Bool) (s : ArtistAlbumViewController) : ArtistAlbumViewController :=
  ({ s with isViewLoaded := true } : ArtistAlbumViewController).observe idle
    (.isLoading s.viewModel.isLoading)

/-- The client answers the call, on another thread. -/
def answer (result : Except APIError Album) (s : ArtistAlbumViewController) : ArtistAlbumViewController :=
  let r := s.viewModel.getArtistAlbumCompletion result
  ({ s with awaiting := false, viewModel := r.1 } : ArtistAlbumViewController).send false r.2

/-- The collection view asks for the rows below the count that it read last. -/
def displays (s : ArtistAlbumViewController) (row : ℕ) : Bool := s.rows.any fun n => row < n

/-- The album that a cell is populated with, `none` where it traps. -/
def cellForItemAt (s : ArtistAlbumViewController) (row : ℕ) : Option AlbumResponse :=
  s.viewModel.albumAt row

/-- One step, `none` where it traps or cannot happen: the view loads once, the call is answered once, and
the collection view knows nothing of the rows before it is laid out. -/
def step (s : ArtistAlbumViewController) : AlbumLabel → Option ArtistAlbumViewController
  | .viewDidLoad idle => if s.isViewLoaded then none else some (s.viewDidLoad idle)
  | .layout => if s.isViewLoaded ∧ s.rows = none then some s.reloadData else none
  | .response result => if s.awaiting then some (s.answer result) else none
  | .main =>
    match s.mainQueue with
    | [] => none
    | e :: queue => some (({ s with mainQueue := queue } : ArtistAlbumViewController).deliver e)
  | .viewForSupplementaryElement idle =>
    if s.rows = none then none else some (s.observe idle (.headerModel s.viewModel.headerModel))
  | .didSelectItemAt row idle =>
    if s.displays row then (s.viewModel.didSelectAlbum F row).map (s.send idle) else none

/-! ### What a step can do -/

/-- The effects of a step, one constructor for each kind. -/
inductive Effect (s : ArtistAlbumViewController) : AlbumLabel → ArtistAlbumViewController → Prop
  | loaded (idle : Bool) (hl : s.isViewLoaded = false) :
      Effect s (.viewDidLoad idle) (s.viewDidLoad idle)
  | laidOut (hl : s.isViewLoaded = true) (hr : s.rows = none) : Effect s .layout s.reloadData
  | answered (result : Except APIError Album) (ha : s.awaiting = true) :
      Effect s (.response result) (s.answer result)
  | delivered (e : AlbumEvent) (queue : List AlbumEvent) (hq : s.mainQueue = e :: queue) :
      Effect s .main (({ s with mainQueue := queue } : ArtistAlbumViewController).deliver e)
  | headed (idle : Bool) (hr : s.rows ≠ none) :
      Effect s (.viewForSupplementaryElement idle)
        (s.observe idle (.headerModel s.viewModel.headerModel))
  | tapped (row : ℕ) (idle : Bool) (es : List AlbumEvent) (hd : s.displays row = true)
      (hes : s.viewModel.didSelectAlbum F row = some es) :
      Effect s (.didSelectItemAt row idle) (s.send idle es)

variable {F formatted} {s s' : ArtistAlbumViewController}

/-- **What a step can do.** -/
theorem step_effect {l : AlbumLabel} (h : s.step F l = some s') : Effect F s l s' := by
  cases l with
  | viewDidLoad idle =>
    simp only [step] at h
    split_ifs at h with hl
    cases h
    exact .loaded idle (by simpa using hl)
  | layout =>
    simp only [step] at h
    split_ifs at h with hl
    cases h
    exact .laidOut hl.1 hl.2
  | response result =>
    simp only [step] at h
    split_ifs at h with ha
    cases h
    exact .answered result ha
  | main =>
    simp only [step] at h
    cases hq : s.mainQueue with
    | nil => rw [hq] at h; cases h
    | cons e queue =>
      rw [hq] at h
      cases h
      exact .delivered e queue hq
  | viewForSupplementaryElement idle =>
    simp only [step] at h
    split_ifs at h with hr
    cases h
    exact .headed idle hr
  | didSelectItemAt row idle =>
    simp only [step] at h
    split_ifs at h with hd
    obtain ⟨es, hes, rfl⟩ := Option.map_eq_some_iff.mp h
    exact .tapped row idle es hd hes

/-! ### The screen as an inbox -/

/-- The screen without its queue, and the queue. -/
def inbox (s : ArtistAlbumViewController) : Inbox ArtistAlbumViewController AlbumEvent :=
  ⟨{ s with mainQueue := [] }, s.mainQueue⟩

/-- The screen once the main thread has handled what waits. -/
def settled (s : ArtistAlbumViewController) : ArtistAlbumViewController := s.inbox.settled deliver

theorem inbox_deliver (e : AlbumEvent) : (s.deliver e).inbox = ⟨s.inbox.state.deliver e, s.mainQueue⟩ := by
  cases e with
  | headerModel model => cases model <;> rfl
  | isLoading | onError | openUrl | reload => rfl

@[simp] theorem viewModel_deliver (e : AlbumEvent) : (s.deliver e).viewModel = s.viewModel := by
  cases e with
  | headerModel model => cases model <;> rfl
  | isLoading | onError | openUrl | reload => rfl

@[simp] theorem awaiting_deliver (e : AlbumEvent) : (s.deliver e).awaiting = s.awaiting := by
  cases e with
  | headerModel model => cases model <;> rfl
  | isLoading | onError | openUrl | reload => rfl

@[simp] theorem isViewLoaded_deliver (e : AlbumEvent) : (s.deliver e).isViewLoaded = s.isViewLoaded := by
  cases e with
  | headerModel model => cases model <;> rfl
  | isLoading | onError | openUrl | reload => rfl

theorem inbox_observe (idle : Bool) (e : AlbumEvent) :
    (s.observe idle e).inbox = s.inbox.observe deliver idle e := by
  unfold observe Inbox.observe inbox
  by_cases h : idle = true ∧ s.mainQueue = []
  · rw [if_pos h, if_pos h]
    exact inbox_deliver e
  · rw [if_neg h, if_neg h]

theorem settled_observe (idle : Bool) (e : AlbumEvent) :
    (s.observe idle e).settled = s.settled.deliver e := by
  rw [settled, inbox_observe, Inbox.settled_observe, settled]

theorem settled_send (idle : Bool) (es : List AlbumEvent) (h : s.isViewLoaded = true) :
    (s.send idle es).settled = es.foldl deliver s.settled := by
  rw [send, if_pos h]
  induction es generalizing s with
  | nil => rfl
  | cons e es ih =>
    have hload : (s.observe idle e).isViewLoaded = true := by
      unfold observe
      split
      · rw [isViewLoaded_deliver, h]
      · exact h
    rw [List.foldl_cons, List.foldl_cons, ih hload, settled_observe]

/-- The step `main` takes one event. -/
theorem take_inbox (F : Foundation) {b : Inbox ArtistAlbumViewController AlbumEvent} :
    s.inbox.take deliver = some b ↔ ∃ s', s.step F .main = some s' ∧ s'.inbox = b := by
  cases hq : s.mainQueue with
  | nil =>
    have htake : s.inbox.take deliver = none := by rw [Inbox.take, inbox, hq]
    simp [htake, step, hq]
  | cons e queue =>
    have htake : s.inbox.take deliver = some ⟨s.inbox.state.deliver e, queue⟩ := by
      rw [Inbox.take, inbox, hq]
    have hbox := inbox_deliver (s := { s with mainQueue := queue }) e
    simp only [step, hq, htake, Option.some.injEq, exists_eq_left', hbox]
    rfl

end ArtistAlbumViewController

end Spotify
