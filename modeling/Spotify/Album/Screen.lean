import Spotify.Album.ViewModel

/-!
# Spotify.Album.Screen — what the album screen shows, over whole runs

The one call of the view model may be answered before or after the view has loaded, and the events of an
answer wait in the main queue; taps and cells come in between.  `Sound` is the invariant; it speaks about the
settled screen, for which an event counts as handled when it is sent.
-/

namespace Spotify.ArtistAlbumViewController

variable {F : Foundation} {formatted : Int → String} {artist : Artist}
  {s s' : ArtistAlbumViewController} {ls : List AlbumLabel}

/-- Another view model, or other rows, under events that wait: only the row count can tell. -/
theorem foldl_deliver_restocked (awaiting : Bool) (vm : AlbumViewModel) (rows : Option ℕ)
    (queue : List AlbumEvent) (u : ArtistAlbumViewController) : ∃ rows',
    queue.foldl deliver { u with awaiting := awaiting, viewModel := vm, rows := rows } =
      { queue.foldl deliver u with awaiting := awaiting, viewModel := vm, rows := rows' } ∧
    (rows' = rows ∨ rows' = some vm.numberOfItems) ∧
    (vm.numberOfItems = u.viewModel.numberOfItems → rows = u.rows →
      rows' = (queue.foldl deliver u).rows) := by
  induction queue generalizing u rows with
  | nil => exact ⟨rows, rfl, .inl rfl, fun _ h => h⟩
  | cons e queue ih =>
    have hstep : ∃ rows₁, ({ u with
          awaiting := awaiting, viewModel := vm, rows := rows } : ArtistAlbumViewController).deliver e =
        { u.deliver e with awaiting := awaiting, viewModel := vm, rows := rows₁ } ∧
        (rows₁ = rows ∨ rows₁ = some vm.numberOfItems) ∧
        (vm.numberOfItems = u.viewModel.numberOfItems → rows = u.rows → rows₁ = (u.deliver e).rows) := by
      cases e with
      | reload => exact ⟨_, rfl, .inr rfl, fun hn _ => congrArg some hn⟩
      | headerModel model => cases model <;> exact ⟨rows, rfl, .inl rfl, fun _ h => h⟩
      | isLoading | onError | openUrl => exact ⟨rows, rfl, .inl rfl, fun _ h => h⟩
    obtain ⟨rows₁, heq, hrows₁, hsame₁⟩ := hstep
    obtain ⟨rows', heq', hrows', hsame'⟩ := ih rows₁ (u.deliver e)
    refine ⟨rows', ?_, ?_, fun hn hr => ?_⟩
    · rw [List.foldl_cons, List.foldl_cons, heq, heq']
    · rcases hrows' with rfl | h
      · exact hrows₁
      · exact .inr h
    · exact hsame' (by rw [viewModel_deliver, hn]) (hsame₁ hn hr)

theorem settled_restocked (awaiting : Bool) (vm : AlbumViewModel) (rows : Option ℕ) : ∃ rows',
    ({ s with awaiting := awaiting, viewModel := vm, rows := rows } : ArtistAlbumViewController).settled =
      { s.settled with awaiting := awaiting, viewModel := vm, rows := rows' } ∧
    (rows' = rows ∨ rows' = some vm.numberOfItems) ∧
    (vm.numberOfItems = s.viewModel.numberOfItems → rows = s.rows → rows' = s.settled.rows) :=
  foldl_deliver_restocked awaiting vm rows s.mainQueue s.inbox.state

theorem settled_of_empty (h : s.mainQueue = []) : s.settled = s := by
  obtain ⟨viewModel, awaiting, isViewLoaded, mainQueue, loader, alerts, opened, rows, header⟩ := s
  obtain rfl : mainQueue = [] := h
  rfl

/-- Handling what waits leaves the view model alone and empties the queue. -/
theorem settled_frame (s : ArtistAlbumViewController) : s.settled.viewModel = s.viewModel ∧
    s.settled.awaiting = s.awaiting ∧ s.settled.isViewLoaded = s.isViewLoaded ∧
    s.settled.mainQueue = [] := by
  suffices h : ∀ (queue : List AlbumEvent) (u : ArtistAlbumViewController), u.mainQueue = [] →
      (queue.foldl deliver u).viewModel = u.viewModel ∧ (queue.foldl deliver u).awaiting = u.awaiting ∧
      (queue.foldl deliver u).isViewLoaded = u.isViewLoaded ∧ (queue.foldl deliver u).mainQueue = [] from
    h s.mainQueue s.inbox.state rfl
  intro queue
  induction queue with
  | nil => exact fun u hu => ⟨rfl, rfl, rfl, hu⟩
  | cons e queue ih =>
    intro u hu
    have hq : (u.deliver e).mainQueue = u.mainQueue := congrArg Inbox.queue (inbox_deliver e)
    obtain ⟨h1, h2, h3, h4⟩ := ih (u.deliver e) (hq.trans hu)
    rw [List.foldl_cons]
    exact ⟨h1.trans (viewModel_deliver e), h2.trans (awaiting_deliver e), h3.trans (isViewLoaded_deliver e), h4⟩

/-- The main thread gets there by taking the events one after the other. -/
theorem exec_main (F : Foundation) (s : ArtistAlbumViewController) :
    Runs.exec (step F) s (List.replicate s.mainQueue.length .main) = some s.settled := by
  obtain ⟨t, ht, hbox⟩ := Inbox.exec_replicate (fun s b => (take_inbox F).mp) s
  have hq : t.mainQueue = [] := congrArg Inbox.queue hbox
  have hst : t = s.settled := by
    rw [← settled_of_empty hq, settled, hbox]
    rfl
  rw [← hst]
  exact ht

/-! ### What is sent -/

/-- The failure that an answer brings to a loaded screen. -/
def announced (isViewLoaded : Bool) : AlbumLabel → Option APIError
  | .response (.error error) => if isViewLoaded then some error else none
  | _ => none

/-- The page of a row of `album`. -/
def page (F : Foundation) (album : Option Album) (row : ℕ) : Option URL :=
  (album.bind fun album => album.items[row]?).bind fun item =>
    (item.externalUrls.lookup "spotify").bind F.url

/-- The page that a tap asks for. -/
def asked (F : Foundation) (album : Option Album) : AlbumLabel → Option URL
  | .didSelectItemAt row _ => page F album row
  | _ => none

theorem didSelectAlbum_eq {vm : AlbumViewModel} {row : ℕ} {es : List AlbumEvent}
    (h : vm.didSelectAlbum F row = some es) : es = (page F vm.album row).toList.map .openUrl := by
  unfold AlbumViewModel.didSelectAlbum at h
  unfold page
  cases halbum : vm.album with
  | none => rw [halbum] at h; cases h; rfl
  | some album =>
    rw [halbum] at h
    simp only at h
    cases hitem : album.items[row]? with
    | none => rw [hitem] at h; cases h
    | some item =>
      rw [hitem] at h
      simp only at h
      simp only [Option.bind_some, hitem]
      cases hurl : (item.externalUrls.lookup "spotify").bind F.url with
      | none => rw [hurl] at h; cases h; rfl
      | some url => rw [hurl] at h; cases h; rfl

/-- A tap on a row of the album does not trap. -/
theorem didSelectAlbum_isSome {vm : AlbumViewModel} {row : ℕ} (h : row < vm.numberOfItems) :
    (vm.didSelectAlbum F row).isSome = true := by
  unfold AlbumViewModel.didSelectAlbum
  unfold AlbumViewModel.numberOfItems at h
  cases halbum : vm.album with
  | none => rfl
  | some album =>
    rw [halbum] at h
    have hitem : album.items[row]? = some album.items[row] := List.getElem?_eq_getElem h
    simp only [hitem]
    cases (album.items[row].externalUrls.lookup "spotify").bind F.url <;> rfl

theorem albumAt_isSome {vm : AlbumViewModel} {row : ℕ} (h : row < vm.numberOfItems) :
    (vm.albumAt row).isSome = true := by
  unfold AlbumViewModel.albumAt
  unfold AlbumViewModel.numberOfItems at h
  cases halbum : vm.album with
  | none => rw [halbum] at h; exact absurd h (Nat.not_lt_zero row)
  | some album =>
    rw [halbum] at h
    exact Option.isSome_iff_exists.mpr ⟨album.items[row], List.getElem?_eq_getElem h⟩

/-! ### The invariant -/

/-- What holds of the screen of `artist` at any time. -/
structure Sound (formatted : Int → String) (artist : Artist) (s : ArtistAlbumViewController) : Prop where
  artist_eq : s.viewModel.artist = artist
  header_eq : s.viewModel.headerModel = (AlbumViewModel.init formatted artist).headerModel
  loading : s.viewModel.isLoading = s.awaiting
  unanswered : s.awaiting = true → s.viewModel.album = none
  unloaded : s.isViewLoaded = false → s.rows = none ∧ s.mainQueue = [] ∧ s.alerts = [] ∧ s.opened = []
  rows_le : ∀ n, s.rows = some n → n ≤ s.viewModel.numberOfItems
  loader : s.isViewLoaded = true → s.settled.loader = s.awaiting
  rows : ∀ n, s.settled.rows = some n → n = s.viewModel.numberOfItems
  header : ∀ model, s.settled.header = some model → s.viewModel.headerModel = some model

theorem sound_launch : Sound formatted artist (launch formatted artist) where
  artist_eq := rfl
  header_eq := rfl
  loading := rfl
  unanswered := fun _ => rfl
  unloaded := fun _ => ⟨rfl, rfl, rfl, rfl⟩
  rows_le := fun _ h => by cases h
  loader := fun h => by cases h
  rows := fun _ h => by cases h
  header := fun _ h => by cases h

theorem Sound.isViewLoaded (hs : Sound formatted artist s) (hr : s.rows ≠ none) :
    s.isViewLoaded = true := by
  by_contra hl
  exact hr (hs.unloaded (by simpa using hl)).1

theorem Sound.lt_of_displays (hs : Sound formatted artist s) {row : ℕ} (hd : s.displays row = true) :
    row < s.viewModel.numberOfItems := by
  obtain ⟨n, hn, hrow⟩ := Option.any_eq_true _ _ |>.mp hd
  have hle := hs.rows_le n hn
  have hlt : row < n := of_decide_eq_true hrow
  omega

/-- The count read last is never above the number of albums. -/
theorem rows_observe (idle : Bool) (e : AlbumEvent) : (s.observe idle e).rows = s.rows ∨
    (s.observe idle e).rows = some s.viewModel.numberOfItems := by
  unfold observe
  split
  · cases e with
    | reload => exact .inr rfl
    | headerModel model => cases model <;> exact .inl rfl
    | isLoading | onError | openUrl => exact .inl rfl
  · exact .inl rfl

theorem observe_frame (idle : Bool) (e : AlbumEvent) :
    (s.observe idle e).viewModel = s.viewModel ∧ (s.observe idle e).awaiting = s.awaiting ∧
    (s.observe idle e).isViewLoaded = s.isViewLoaded := by
  unfold observe
  split
  · exact ⟨viewModel_deliver e, awaiting_deliver e, isViewLoaded_deliver e⟩
  · exact ⟨rfl, rfl, rfl⟩

theorem send_frame (idle : Bool) (es : List AlbumEvent) :
    (s.send idle es).viewModel = s.viewModel ∧ (s.send idle es).awaiting = s.awaiting ∧
    (s.send idle es).isViewLoaded = s.isViewLoaded ∧
    ((s.send idle es).rows = s.rows ∨ (s.send idle es).rows = some s.viewModel.numberOfItems) := by
  unfold send
  by_cases hl : s.isViewLoaded = true
  · rw [if_pos hl]
    induction es generalizing s with
    | nil => exact ⟨rfl, rfl, rfl, .inl rfl⟩
    | cons e es ih =>
      obtain ⟨h1, h2, h3⟩ := observe_frame (s := s) idle e
      obtain ⟨g1, g2, g3, g4⟩ := ih (s := s.observe idle e) (h3.trans hl)
      rw [List.foldl_cons]
      refine ⟨g1.trans h1, g2.trans h2, g3.trans h3, ?_⟩
      rw [h1] at g4
      rcases g4 with g4 | g4
      · rw [g4]
        exact rows_observe idle e
      · exact .inr g4
  · rw [if_neg hl]
    exact ⟨rfl, rfl, rfl, .inl rfl⟩

/-! ### Steps -/

/-- Loading the view shows the loader that the view model asks for. -/
theorem settled_viewDidLoad (idle : Bool) (hq : s.mainQueue = []) :
    (s.viewDidLoad idle).settled = { s with isViewLoaded := true, loader := s.viewModel.isLoading } := by
  rw [viewDidLoad, settled_observe, settled_of_empty (s := { s with isViewLoaded := true }) hq]
  rfl

theorem send_of_unloaded (idle : Bool) (es : List AlbumEvent) (hl : s.isViewLoaded = false) :
    s.send idle es = s := by
  rw [send, hl]
  rfl

theorem answer_of_unloaded (result : Except APIError Album) (hl : s.isViewLoaded = false) :
    s.answer result = { s with
      awaiting := false, viewModel := (s.viewModel.getArtistAlbumCompletion result).1 } :=
  send_of_unloaded (s := { s with
    awaiting := false, viewModel := (s.viewModel.getArtistAlbumCompletion result).1 }) false _ hl

theorem settled_answer_ok (album : Album) (hl : s.isViewLoaded = true) :
    (s.answer (.ok album)).settled = { s.settled with
      awaiting := false
      viewModel := { s.viewModel with isLoading := false, album := some album }
      loader := false
      rows := some album.items.length } := by
  obtain ⟨rows', heq, -⟩ :=
    settled_restocked (s := s) false { s.viewModel with isLoading := false, album := some album } s.rows
  have hsend := settled_send (s := { s with
    awaiting := false, viewModel := { s.viewModel with isLoading := false, album := some album } })
    false [.isLoading false, .reload] hl
  rw [heq] at hsend
  exact hsend

theorem settled_answer_error (error : APIError) (hl : s.isViewLoaded = true) :
    (s.answer (.error error)).settled = { s.settled with
      awaiting := false
      viewModel := { s.viewModel with isLoading := false }
      loader := false
      alerts := s.settled.alerts ++ [error] } := by
  obtain ⟨rows', heq, -, hsame⟩ :=
    settled_restocked (s := s) false { s.viewModel with isLoading := false } s.rows
  have hsend := settled_send (s := { s with
    awaiting := false, viewModel := { s.viewModel with isLoading := false } })
    false [.isLoading false, .onError error] hl
  rw [heq, hsame rfl rfl] at hsend
  exact hsend

theorem settled_reloadData :
    s.reloadData.settled = { s.settled with rows := some s.viewModel.numberOfItems } := by
  obtain ⟨rows', heq, hrows, -⟩ :=
    settled_restocked (s := s) s.settled.awaiting s.settled.viewModel (some s.viewModel.numberOfItems)
  obtain ⟨hvm, hawait, -⟩ := settled_frame s
  have hsome : rows' = some s.viewModel.numberOfItems := by
    rw [hvm] at hrows
    exact hrows.elim id id
  rw [hsome, hvm, hawait] at heq
  rw [reloadData, heq, ← hvm, ← hawait]

theorem Sound.viewDidLoad (hs : Sound formatted artist s) (idle : Bool) (hl : s.isViewLoaded = false) :
    Sound formatted artist (s.viewDidLoad idle) := by
  obtain ⟨hr, hq, -⟩ := hs.unloaded hl
  obtain ⟨hvm, hawait, hload⟩ := observe_frame (s := { s with isViewLoaded := true }) idle
    (.isLoading s.viewModel.isLoading)
  have hvm : (s.viewDidLoad idle).viewModel = s.viewModel := hvm
  have hawait : (s.viewDidLoad idle).awaiting = s.awaiting := hawait
  have hload : (s.viewDidLoad idle).isViewLoaded = true := hload
  have hset := settled_viewDidLoad idle hq
  have hrows : (s.viewDidLoad idle).rows = none := by
    unfold ArtistAlbumViewController.viewDidLoad observe
    split <;> exact hr
  have hheader := hs.header
  rw [settled_of_empty hq] at hheader
  constructor
  · rw [hvm, hs.artist_eq]
  · rw [hvm, hs.header_eq]
  · rw [hvm, hawait, hs.loading]
  · rw [hvm, hawait]
    exact hs.unanswered
  · rw [hload]
    intro h
    cases h
  · intro n hn
    rw [hrows] at hn
    cases hn
  · rw [hset, hawait]
    exact fun _ => hs.loading
  · rw [hset]
    intro n hn
    have hn : s.rows = some n := hn
    rw [hr] at hn
    cases hn
  · rw [hset, hvm]
    exact hheader

theorem Sound.reloadData (hs : Sound formatted artist s) (hl : s.isViewLoaded = true) :
    Sound formatted artist s.reloadData where
  artist_eq := hs.artist_eq
  header_eq := hs.header_eq
  loading := hs.loading
  unanswered := hs.unanswered
  unloaded := fun h => by
    have hl' : s.isViewLoaded = false := h
    rw [hl] at hl'
    cases hl'
  rows_le := fun n hn => by
    cases hn
    exact Nat.le_refl _
  loader := fun _ => by
    rw [settled_reloadData]
    exact hs.loader hl
  rows := fun n hn => by
    rw [settled_reloadData] at hn
    cases hn
    rfl
  header := fun model hm => by
    rw [settled_reloadData] at hm
    exact hs.header model hm

/-- What the answer leaves of the screen, beside what it shows. -/
theorem answer_frame (result : Except APIError Album) :
    (s.answer result).viewModel = (s.viewModel.getArtistAlbumCompletion result).1 ∧
    (s.answer result).awaiting = false ∧ (s.answer result).isViewLoaded = s.isViewLoaded ∧
    ((s.answer result).rows = s.rows ∨
      (s.answer result).rows = some (s.viewModel.getArtistAlbumCompletion result).1.numberOfItems) :=
  send_frame false _

theorem Sound.answer (hs : Sound formatted artist s) (ha : s.awaiting = true)
    (result : Except APIError Album) : Sound formatted artist (s.answer result) := by
  have hnone : s.viewModel.album = none := hs.unanswered ha
  have hzero : s.viewModel.numberOfItems = 0 := by rw [AlbumViewModel.numberOfItems, hnone]
  obtain ⟨hvm, hawait, hload, hrows⟩ := answer_frame (s := s) result
  have hkept : (s.viewModel.getArtistAlbumCompletion result).1.artist = s.viewModel.artist ∧
      (s.viewModel.getArtistAlbumCompletion result).1.headerModel = s.viewModel.headerModel ∧
      (s.viewModel.getArtistAlbumCompletion result).1.isLoading = false := by
    cases result <;> exact ⟨rfl, rfl, rfl⟩
  constructor
  · rw [hvm, hkept.1, hs.artist_eq]
  · rw [hvm, hkept.2.1, hs.header_eq]
  · rw [hvm, hawait, hkept.2.2]
  · rw [hawait]
    intro h
    cases h
  · rw [hload]
    intro hl
    rw [answer_of_unloaded result hl]
    exact hs.unloaded hl
  · rw [hvm]
    intro n hn
    rcases hrows with hrows | hrows
    · -- before the answer there was no row
      have hle := hs.rows_le n (hrows.symm.trans hn)
      omega
    · rw [hrows] at hn
      cases hn
      exact Nat.le_refl _
  · rw [hload, hawait]
    intro hl
    cases result with
    | ok album => rw [settled_answer_ok album hl]
    | error error => rw [settled_answer_error error hl]
  · rw [hvm]
    intro n hn
    cases hl : s.isViewLoaded with
    | false =>
      obtain ⟨hr, hq, -⟩ := hs.unloaded hl
      have hq' : (s.answer result).mainQueue = [] := by rw [answer_of_unloaded result hl, hq]
      have hr' : (s.answer result).rows = none := by rw [answer_of_unloaded result hl, hr]
      rw [settled_of_empty hq', hr'] at hn
      cases hn
    | true =>
      cases result with
      | ok album =>
        rw [settled_answer_ok album hl] at hn
        cases hn
        rfl
      | error error =>
        rw [settled_answer_error error hl] at hn
        exact hs.rows n hn
  · rw [hvm, hkept.2.1]
    intro model hm
    refine hs.header model ?_
    rw [← hm]
    cases hl : s.isViewLoaded with
    | false =>
      have hq := (hs.unloaded hl).2.1
      have hq' : (s.answer result).mainQueue = [] := by rw [answer_of_unloaded result hl, hq]
      rw [settled_of_empty hq, settled_of_empty hq', answer_of_unloaded result hl]
    | true =>
      cases result with
      | ok album => rw [settled_answer_ok album hl]
      | error error => rw [settled_answer_error error hl]

theorem Sound.headed (hs : Sound formatted artist s) (idle : Bool) (hr : s.rows ≠ none) :
    Sound formatted artist (s.observe idle (.headerModel s.viewModel.headerModel)) := by
  obtain ⟨hvm, hawait, hload⟩ := observe_frame (s := s) idle (.headerModel s.viewModel.headerModel)
  have hl : s.isViewLoaded = true := hs.isViewLoaded hr
  have hheader : s.viewModel.headerModel = (AlbumViewModel.init formatted artist).headerModel := hs.header_eq
  have hset : (s.observe idle (.headerModel s.viewModel.headerModel)).settled =
      { s.settled with header := s.viewModel.headerModel } := by
    rw [settled_observe, hheader]
    rfl
  constructor <;> first | rw [hset] | skip
  · rw [hvm, hs.artist_eq]
  · rw [hvm, hs.header_eq]
  · rw [hvm, hawait, hs.loading]
  · rw [hvm, hawait]
    exact hs.unanswered
  · rw [hload, hl]
    intro h
    cases h
  · rw [hvm]
    intro n hn
    rcases rows_observe (s := s) idle (.headerModel s.viewModel.headerModel) with hrows | hrows
    · exact hs.rows_le n (hrows.symm.trans hn)
    · rw [hrows] at hn
      cases hn
      exact Nat.le_refl _
  · rw [hawait]
    exact fun _ => hs.loader hl
  · rw [hvm]
    exact hs.rows
  · rw [hvm]
    exact fun model hm => hm

theorem settled_tap (idle : Bool) (url : Option URL) (hl : s.isViewLoaded = true) :
    (s.send idle (url.toList.map .openUrl)).settled =
      { s.settled with opened := s.settled.opened ++ url.toList } := by
  rw [settled_send idle _ hl]
  cases url with
  | none => rw [Option.toList_none, List.append_nil]; rfl
  | some url => rfl

theorem Sound.tapped (hs : Sound formatted artist s) (idle : Bool) (hl : s.isViewLoaded = true)
    (url : Option URL) : Sound formatted artist (s.send idle (url.toList.map .openUrl)) := by
  obtain ⟨hvm, hawait, hload, hrows⟩ := send_frame (s := s) idle (url.toList.map .openUrl)
  have hset := settled_tap idle url hl
  constructor <;> first | rw [hset] | skip
  · rw [hvm, hs.artist_eq]
  · rw [hvm, hs.header_eq]
  · rw [hvm, hawait, hs.loading]
  · rw [hvm, hawait]
    exact hs.unanswered
  · rw [hload, hl]
    intro h
    cases h
  · rw [hvm]
    intro n hn
    rcases hrows with hrows | hrows
    · exact hs.rows_le n (hrows.symm.trans hn)
    · rw [hrows] at hn
      cases hn
      exact Nat.le_refl _
  · rw [hawait]
    exact fun _ => hs.loader hl
  · rw [hvm]
    exact hs.rows
  · rw [hvm]
    exact hs.header

theorem settled_delivered {e : AlbumEvent} {queue : List AlbumEvent} (hq : s.mainQueue = e :: queue) :
    (({ s with mainQueue := queue } : ArtistAlbumViewController).deliver e).settled = s.settled := by
  have hmain : s.step Foundation.ascii .main =
      some (({ s with mainQueue := queue } : ArtistAlbumViewController).deliver e) := by rw [step, hq]
  exact Inbox.settled_take ((take_inbox Foundation.ascii).mpr ⟨_, hmain, rfl⟩)

/-- Taking an event of the queue shows, and changes nothing else. -/
theorem Sound.delivered (hs : Sound formatted artist s) {e : AlbumEvent} {queue : List AlbumEvent}
    (hq : s.mainQueue = e :: queue) :
    Sound formatted artist (({ s with mainQueue := queue } : ArtistAlbumViewController).deliver e) := by
  have hset := settled_delivered hq
  have hrows : (({ s with mainQueue := queue } : ArtistAlbumViewController).deliver e).rows = s.rows ∨
      (({ s with mainQueue := queue } : ArtistAlbumViewController).deliver e).rows =
        some s.viewModel.numberOfItems := by
    cases e with
    | reload => exact .inr rfl
    | headerModel model => cases model <;> exact .inl rfl
    | isLoading | onError | openUrl => exact .inl rfl
  constructor <;> first | rw [hset] | skip
  · rw [viewModel_deliver]
    exact hs.artist_eq
  · rw [viewModel_deliver]
    exact hs.header_eq
  · rw [viewModel_deliver, awaiting_deliver]
    exact hs.loading
  · rw [viewModel_deliver, awaiting_deliver]
    exact hs.unanswered
  · rw [isViewLoaded_deliver]
    intro hl
    have hempty := (hs.unloaded hl).2.1
    rw [hq] at hempty
    cases hempty
  · rw [viewModel_deliver]
    intro n hn
    rcases hrows with hrows | hrows
    · exact hs.rows_le n (hrows.symm.trans hn)
    · rw [hrows] at hn
      cases hn
      exact Nat.le_refl _
  · rw [isViewLoaded_deliver, awaiting_deliver]
    exact hs.loader
  · rw [viewModel_deliver]
    exact hs.rows
  · rw [viewModel_deliver]
    exact hs.header

theorem Sound.step (hs : Sound formatted artist s) {l : AlbumLabel} (h : s.step F l = some s') :
    Sound formatted artist s' := by
  cases step_effect h with
  | loaded idle hl => exact hs.viewDidLoad idle hl
  | laidOut hl hr => exact hs.reloadData hl
  | answered result ha => exact hs.answer ha result
  | delivered e queue hq => exact hs.delivered hq
  | headed idle hr => exact hs.headed idle hr
  | tapped row idle es hd hes =>
    have hl : s.isViewLoaded = true := hs.isViewLoaded fun hr => by simp [displays, hr] at hd
    rw [didSelectAlbum_eq hes]
    exact hs.tapped idle hl _

/-- One step of the settled screen: a tap opens its page, a failure is announced. -/
theorem Sound.settled_step (hs : Sound formatted artist s) {l : AlbumLabel} (h : s.step F l = some s') :
    s'.settled.opened = s.settled.opened ++ (asked F s.viewModel.album l).toList ∧
    s'.settled.alerts = s.settled.alerts ++ (announced s.isViewLoaded l).toList := by
  cases step_effect h with
  | loaded idle hl =>
    obtain ⟨-, hq, -⟩ := hs.unloaded hl
    rw [settled_viewDidLoad idle hq, settled_of_empty hq]
    exact ⟨(List.append_nil _).symm, (List.append_nil _).symm⟩
  | laidOut hl hr =>
    rw [settled_reloadData]
    exact ⟨(List.append_nil _).symm, (List.append_nil _).symm⟩
  | answered result ha =>
    cases hl : s.isViewLoaded with
    | false =>
      obtain ⟨-, hq, -⟩ := hs.unloaded hl
      have hq' : (s.answer result).mainQueue = [] := by rw [answer_of_unloaded result hl, hq]
      rw [settled_of_empty hq', settled_of_empty hq, answer_of_unloaded result hl]
      cases result <;> exact ⟨(List.append_nil _).symm, (List.append_nil _).symm⟩
    | true =>
      cases result with
      | ok album =>
        rw [settled_answer_ok album hl]
        exact ⟨(List.append_nil _).symm, (List.append_nil _).symm⟩
      | error error =>
        rw [settled_answer_error error hl]
        exact ⟨(List.append_nil _).symm, rfl⟩
  | delivered e queue hq =>
    rw [settled_delivered hq]
    exact ⟨(List.append_nil _).symm, (List.append_nil _).symm⟩
  | headed idle hr =>
    rw [settled_observe]
    cases s.viewModel.headerModel <;> exact ⟨(List.append_nil _).symm, (List.append_nil _).symm⟩
  | tapped row idle es hd hes =>
    have hl : s.isViewLoaded = true := hs.isViewLoaded fun hr => by simp [displays, hr] at hd
    rw [didSelectAlbum_eq hes, settled_tap idle _ hl]
    exact ⟨rfl, (List.append_nil _).symm⟩

/-! ### Runs -/

/-- The view is loaded. -/
def loads : AlbumLabel → Bool
  | .viewDidLoad _ => true
  | _ => false

/-- The failures that the answers of a run bring to the loaded screen. -/
def announcements : Bool → List AlbumLabel → List APIError
  | _, [] => []
  | isViewLoaded, l :: ls =>
    (announced isViewLoaded l).toList ++ announcements (isViewLoaded || loads l) ls

theorem Sound.exec (hs : Sound formatted artist s) (h : Runs.exec (ArtistAlbumViewController.step F) s ls = some s') :
    Sound formatted artist s' :=
  Runs.exec_inv (fun _ _ _ hs h => Sound.step hs h) hs h

theorem isViewLoaded_step {l : AlbumLabel} (h : s.step F l = some s') :
    s'.isViewLoaded = (s.isViewLoaded || loads l) := by
  cases step_effect h with
  | loaded idle hl =>
    have hload : (s.viewDidLoad idle).isViewLoaded = true := (observe_frame idle _).2.2
    rw [hload, loads, Bool.or_true]
  | laidOut hl hr => exact (Bool.or_false _).symm
  | answered result ha => exact (answer_frame result).2.2.1.trans (Bool.or_false _).symm
  | delivered e queue hq => exact (isViewLoaded_deliver e).trans (Bool.or_false _).symm
  | headed idle hr => exact (observe_frame idle _).2.2.trans (Bool.or_false _).symm
  | tapped row idle es hd hes => exact (send_frame idle es).2.2.1.trans (Bool.or_false _).symm

/-- An album that is there stays. -/
theorem Sound.album_step (hs : Sound formatted artist s) {l : AlbumLabel} (h : s.step F l = some s') :
    s.viewModel.album = none ∨ s'.viewModel.album = s.viewModel.album := by
  cases step_effect h with
  | loaded idle hl => exact .inr (congrArg AlbumViewModel.album (observe_frame idle _).1)
  | laidOut hl hr => exact .inr rfl
  | answered result ha => exact .inl (hs.unanswered ha)
  | delivered e queue hq => exact .inr (congrArg AlbumViewModel.album (viewModel_deliver e))
  | headed idle hr => exact .inr (congrArg AlbumViewModel.album (observe_frame idle _).1)
  | tapped row idle es hd hes => exact .inr (congrArg AlbumViewModel.album (send_frame idle es).1)

theorem Sound.album_exec (hs : Sound formatted artist s)
    (h : Runs.exec (ArtistAlbumViewController.step F) s ls = some s') :
    s.viewModel.album = none ∨ s'.viewModel.album = s.viewModel.album := by
  induction ls generalizing s with
  | nil => cases h; exact .inr rfl
  | cons l ls ih =>
    obtain ⟨u, hu, h⟩ := Option.bind_eq_some_iff.mp h
    rcases hs.album_step hu with hnone | hkeep
    · exact .inl hnone
    · rcases ih (hs.step hu) h with hnone | hkeep'
      · exact .inl (hkeep.symm.trans hnone)
      · exact .inr (hkeep'.trans hkeep)

/-- The page of a tap is that of the album on display, now and later. -/
theorem Sound.asked_exec (hs : Sound formatted artist s) {l : AlbumLabel}
    (hl : (s.step F l).isSome = true) (h : Runs.exec (ArtistAlbumViewController.step F) s ls = some s') :
    asked F s.viewModel.album l = asked F s'.viewModel.album l := by
  cases l with
  | viewDidLoad | layout | response | main | viewForSupplementaryElement => rfl
  | didSelectItemAt row idle =>
    have hd : s.displays row = true := by
      by_contra hno
      simp [ArtistAlbumViewController.step, hno] at hl
    have hlt : row < s.viewModel.numberOfItems := hs.lt_of_displays hd
    rcases hs.album_exec h with hnone | hkeep
    · rw [AlbumViewModel.numberOfItems, hnone] at hlt
      exact absurd hlt (Nat.not_lt_zero row)
    · rw [hkeep]

/-- A whole run of the settled screen. -/
theorem Sound.settled_exec (hs : Sound formatted artist s)
    (h : Runs.exec (ArtistAlbumViewController.step F) s ls = some s') :
    s'.settled.opened = s.settled.opened ++ ls.filterMap (asked F s'.viewModel.album) ∧
    s'.settled.alerts = s.settled.alerts ++ announcements s.isViewLoaded ls := by
  induction ls generalizing s with
  | nil =>
    cases h
    exact ⟨(List.append_nil _).symm, (List.append_nil _).symm⟩
  | cons l ls ih =>
    have hall := h
    obtain ⟨u, hu, h⟩ := Option.bind_eq_some_iff.mp h
    obtain ⟨hopened, halerts⟩ := hs.settled_step hu
    obtain ⟨hopened', halerts'⟩ := ih (hs.step hu) h
    have hasked : asked F s.viewModel.album l = asked F s'.viewModel.album l :=
      hs.asked_exec (by rw [hu]; rfl) hall
    constructor
    · rw [hopened', hopened, hasked, List.append_assoc]
      cases hl : asked F s'.viewModel.album l with
      | none => rw [List.filterMap_cons_none hl, Option.toList_none, List.nil_append]
      | some url => rw [List.filterMap_cons_some hl, Option.toList_some, List.singleton_append]
    · rw [halerts', halerts, isViewLoaded_step hu, List.append_assoc]
      rfl

/-- **No row traps.**  In every run, whenever the answer comes and however late its events are handled, each
row that the collection view may ask for has its album, and tapping it does not trap. -/
theorem rows_never_trap (F : Foundation) (formatted : Int → String) (artist : Artist)
    (ls : List AlbumLabel) (s : ArtistAlbumViewController)
    (h : Runs.exec (step F) (launch formatted artist) ls = some s) (row : ℕ)
    (hd : s.displays row = true) : (s.cellForItemAt row).isSome = true ∧
      ∀ idle, (s.step F (.didSelectItemAt row idle)).isSome = true := by
  have hs : Sound formatted artist s := sound_launch.exec h
  have hlt : row < s.viewModel.numberOfItems := hs.lt_of_displays hd
  refine ⟨albumAt_isSome hlt, fun idle => ?_⟩
  rw [step, if_pos hd, Option.isSome_map]
  exact didSelectAlbum_isSome hlt

/-- Two albums, the second without a page. -/
def twoAlbums : Album :=
  ⟨[⟨[], none, [("spotify", "https://open.spotify.com/album/1")], some "One", some 9, none⟩,
    ⟨[], none, [], some "Two", none, none⟩]⟩

/-- The answer comes while the view is up; both albums are tapped, the first one twice. -/
def tappedTwice : List AlbumLabel :=
  [.viewDidLoad true, .layout, .response (.ok twoAlbums), .main, .main, .viewForSupplementaryElement true,
    .didSelectItemAt 0 true, .didSelectItemAt 1 true, .didSelectItemAt 0 false]

theorem tappedTwice_row : ∃ s,
    Runs.exec (step Foundation.ascii) (launch (fun n => toString n) ⟨none, "A", "7", none, none⟩) tappedTwice =
      some s ∧ s.displays 1 = true ∧ (s.cellForItemAt 1).isSome = true := by
  have hrun : (Runs.exec (step Foundation.ascii)
      (launch (fun n => toString n) ⟨none, "A", "7", none, none⟩) tappedTwice).any
        (fun s => s.displays 1 = true) = true := by
    decide +kernel
  obtain ⟨s, hrun, hd⟩ := Runs.exec_of_any hrun
  exact ⟨s, hrun, hd, (rows_never_trap _ _ _ _ s hrun 1 hd).1⟩

/-- **The screen settles.**  From every state of a run, handling what waits leads to a screen whose loader
spins exactly while the call is unanswered, whose rows are those of the album, which has opened the pages
of the albums that were tapped, each once and in order, and which has announced the failure of the call
unless it came before the view was loaded. -/
theorem screen_settles (F : Foundation) (formatted : Int → String) (artist : Artist)
    (ls : List AlbumLabel) (s : ArtistAlbumViewController)
    (h : Runs.exec (step F) (launch formatted artist) ls = some s) :
    Runs.exec (step F) s (List.replicate s.mainQueue.length .main) = some s.settled ∧
    s.settled.viewModel = s.viewModel ∧ s.settled.mainQueue = [] ∧
    (s.isViewLoaded = true → s.settled.loader = s.awaiting) ∧
    (∀ n, s.settled.rows = some n → n = s.viewModel.numberOfItems) ∧
    s.settled.opened = ls.filterMap (asked F s.viewModel.album) ∧
    s.settled.alerts = announcements false ls := by
  have h0 : Sound formatted artist (launch formatted artist) := sound_launch
  have hs : Sound formatted artist s := h0.exec h
  obtain ⟨hvm, -, -, hq⟩ := settled_frame s
  obtain ⟨hopened, halerts⟩ := h0.settled_exec h
  exact ⟨exec_main F s, hvm, hq, hs.loader, hs.rows, hopened, halerts⟩

theorem tappedTwice_opened : ∃ s,
    Runs.exec (step Foundation.ascii) (launch (fun n => toString n) ⟨none, "A", "7", none, none⟩) tappedTwice =
      some s ∧
    s.settled.opened = [⟨"https://open.spotify.com/album/1"⟩, ⟨"https://open.spotify.com/album/1"⟩] := by
  have hrun : (Runs.exec (step Foundation.ascii)
      (launch (fun n => toString n) ⟨none, "A", "7", none, none⟩) tappedTwice).any
        (fun s => s.viewModel.album = some twoAlbums) = true := by
    decide +kernel
  obtain ⟨s, hrun, halbum⟩ := Runs.exec_of_any hrun
  obtain ⟨-, -, -, -, -, hopened, -⟩ := screen_settles _ _ _ _ s hrun
  rw [halbum] at hopened
  exact ⟨s, hrun, hopened.trans (by decide +kernel)⟩

/-- A failure that comes before the view is loaded is announced to nobody. -/
example (error : APIError) :
    announcements false [.response (.error error), .viewDidLoad true, .layout] = [] := rfl

end Spotify.ArtistAlbumViewController
