import Spotify.Browse.Search
import Spotify.Browse.Screens

/-!
# Spotify.Browse.Alerts — which failures the app announces, and in what words

A screen announces the failures that its bindings hand to `showAlert(with:)`.  `failures` lists those that the
client answered to the calls of one screen.  The settled search screen has announced all of them in order, an
album screen those that came while its view was loaded (`alerts_answered`).
-/

namespace Spotify

/-- The screen whose completion it is. -/
def Owner.screen : Owner → EventOwner
  | .search _ => .search
  | .album k => .album k

/-- The message of `showAlert(with:)`; `description` is that of the decoder's error. -/
def APIError.showAlert (description : String) : APIError → String
  | .failedFetchingData => "Failed to fetch data!"
  | .custom message => message
  | .decoding => description
  | .other localizedDescription => localizedDescription

namespace BrowseApp

variable {β : Type} {F : Foundation} {formatted : Int → String} {s s' : BrowseApp β}
  {ls : List (BrowseLabel β)} {screen : EventOwner}

/-- The failure that an answer brings to a screen. -/
def failureOf (calls : List (Endpoint × Owner)) (screen : EventOwner) :
    ℕ × Except APIError Payload → Option APIError
  | (_, .ok _) => none
  | (call, .error error) => calls[call]?.bind fun c => if c.2.screen = screen then some error else none

/-- The failures answered to the calls of a screen. -/
def failures (s : BrowseApp β) (screen : EventOwner) : List APIError :=
  s.client.answers.filterMap (failureOf s.calls screen)

/-- The failure that a step brings to a screen. -/
def newFailure (s : BrowseApp β) (screen : EventOwner) : BrowseLabel β → Option APIError
  | .response task outcome =>
    (s.client.tasks.find? task).bind fun t =>
      failureOf s.calls screen (t.call.id, t.call.endpoint.handler outcome)
  | _ => none

theorem failureOf_eq {calls : List (Endpoint × Owner)} {call : ℕ} {endpoint : Endpoint} {owner : Owner}
    (hcall : calls[call]? = some (endpoint, owner)) (result : Except APIError Payload) :
    failureOf calls screen (call, result) = match result with
      | .ok _ => none
      | .error error => if owner.screen = screen then some error else none := by
  cases result with
  | ok result => rfl
  | error error => rw [failureOf, hcall, Option.bind_some]

/-! ### What is answered -/

/-- Calls made later say nothing of the answers so far. -/
theorem Linked.failures_append (hs : Linked s) (calls : List (Endpoint × Owner)) :
    s.client.answers.filterMap (failureOf (s.calls ++ calls) screen) = s.failures screen := by
  apply List.filterMap_congr
  rintro ⟨c, result⟩ hmem
  obtain ⟨e, o, he, -, -⟩ := hs.made.answers c result hmem
  rw [List.getElem?_map] at he
  obtain ⟨⟨endpoint, owner⟩, hcall, -⟩ := Option.map_eq_some_iff.mp he
  have hcall' : (s.calls ++ calls)[c]? = some (endpoint, owner) :=
    getElem?_of_prefix (List.prefix_append _ _) hcall
  rw [failureOf_eq hcall, failureOf_eq hcall']

theorem Linked.failures_step (hs : Linked s) {l : BrowseLabel β} (h : s.step F formatted l = some s') :
    s'.failures screen = s.failures screen ++ (s.newFailure screen l).toList := by
  have hkept : ∀ {al : APILabel β} {client : APIClient β}, (∀ task o, al ≠ .response task o) →
      s.client.step F al = some client → client.answers = s.client.answers :=
    fun hal hc => APIClient.answers_step hal hc
  have hsame : s'.client.answers = s.client.answers → s.calls <+: s'.calls → s.newFailure screen l = none →
      s'.failures screen = s.failures screen ++ (s.newFailure screen l).toList := by
    rintro hanswers ⟨calls, hcalls⟩ hnone
    rw [hnone, Option.toList_none, List.append_nil, failures, hanswers, ← hcalls]
    exact hs.failures_append calls
  cases step_effect h with
  | typed | mainSearch | mainGone | mainAlbum | ignored | acted | popped =>
    exact hsame rfl List.prefix_rfl rfl
  | quiet l dl debounce out hl hin hd hem hv =>
    refine hsame rfl List.prefix_rfl ?_
    cases l with
    | response => cases hl
    | textDidChange | fire | propagate | uptime | auth | main | didSelectItemAt | album | backButtonTapped => rfl
  | searched k text debounce out client hd hem hv hv' hc | opened row artist client hrow hsel hc =>
    exact hsame (hkept (fun _ _ h => by cases h) hc) (List.prefix_append _ _) rfl
  | auth l client hc => exact hsame (hkept (fun _ _ h => by cases h) hc) List.prefix_rfl rfl
  | answered task t outcome client endpoint owner ht hc hcall =>
    obtain ⟨hclient, hcalls, -⟩ := complete_frame (s := { s with client := client }) owner
      (t.call.endpoint.handler outcome)
    obtain ⟨t', ht', -, rfl⟩ := APIClient.step_response hc
    obtain rfl : t = t' := Option.some.inj (ht.symm.trans ht')
    have hnew : s.newFailure screen (.response task outcome) =
        failureOf s.calls screen (t.call.id, t.call.endpoint.handler outcome) := by
      rw [newFailure, ht, Option.bind_some]
    rw [hnew, failures, hclient, hcalls, failures]
    show (s.client.answers ++ [(t.call.id, t.call.endpoint.handler outcome)]).filterMap _ = _
    rw [List.filterMap_append]
    cases hfailure : failureOf s.calls screen (t.call.id, t.call.endpoint.handler outcome) with
    | none => rw [List.filterMap_cons_none hfailure]; rfl
    | some error => rw [List.filterMap_cons_some hfailure]; rfl

/-- What the search screen takes from a step fails exactly when the answer to its search does. -/
theorem searchLabels_failure {l : BrowseLabel β} (h : s.step F formatted l = some s') :
    (searchLabels s l).filterMap SearchViewController.failure = (s.newFailure .search l).toList := by
  cases l with
  | textDidChange | fire | uptime | auth | main | didSelectItemAt | album | backButtonTapped => rfl
  | propagate k =>
    rw [searchLabels]
    cases s.passes k <;> rfl
  | response task outcome =>
    cases step_effect h with
    | quiet l dl debounce out hl => cases hl
    | answered task t outcome client endpoint owner ht hc hcall =>
      rw [searchLabels, newFailure, ht, Option.bind_some, failureOf_eq hcall]
      simp only [hcall]
      cases owner with
      | album k => cases t.call.endpoint.handler outcome <;> rfl
      | search i =>
        cases t.call.endpoint.handler outcome with
        | error error => rfl
        | ok result => cases result <;> rfl

/-! ### What is announced -/

theorem Displays.sound (hs : Displays F formatted s) {k : ℕ} {screen : ArtistAlbumViewController}
    (hk : s.screens.find? k = some screen) :
    ∃ artist, ArtistAlbumViewController.Sound formatted artist screen := by
  have h0 : ∀ u, (∃ artist, u = ArtistAlbumViewController.launch formatted artist) →
      ∃ artist, ArtistAlbumViewController.Sound formatted artist u := by
    rintro u ⟨artist, rfl⟩
    exact ⟨artist, ArtistAlbumViewController.sound_launch⟩
  exact Runs.Reachable.inv h0 (fun _ _ _ ⟨artist, hu⟩ hl => ⟨artist, hu.step hl⟩) (hs.reachable k screen hk)

/-- A screen that takes a step announces the failure that the step brings, or nothing. -/
theorem Displays.alerts_update (hs : Displays F formatted s) {j k : ℕ}
    {old new screen : ArtistAlbumViewController} {al : AlbumLabel} {error : Option APIError}
    (hj : s.screens.find? j = some old) (hnew : old.step F al = some new)
    (herror : ∀ isViewLoaded e, ArtistAlbumViewController.announced isViewLoaded al = some e → error = some e)
    (hk : (s.screens.update j fun _ => new).find? k = some screen) :
    ∃ old, s.screens.find? k = some old ∧ (screen.settled.alerts = old.settled.alerts ∨
      k = j ∧ screen.settled.alerts = old.settled.alerts ++ error.toList) := by
  rw [Pool.find?_update] at hk
  split_ifs at hk with hkj
  · subst hkj
    rw [hj] at hk
    cases hk
    obtain ⟨artist, hsound⟩ := hs.sound hj
    obtain ⟨-, halerts⟩ := hsound.settled_step hnew
    refine ⟨old, hj, ?_⟩
    cases ha : ArtistAlbumViewController.announced old.isViewLoaded al with
    | none =>
      left
      rw [halerts, ha, Option.toList_none, List.append_nil]
    | some e =>
      right
      rw [halerts, ha, herror _ e ha]
      exact ⟨rfl, rfl⟩
  · exact ⟨screen, hk, .inl rfl⟩

/-- What an album screen announces in a step is the failure that the step brings it, or nothing. -/
theorem Displays.alerts_step (hs : Displays F formatted s) {l : BrowseLabel β}
    (h : s.step F formatted l = some s') {k : ℕ} {screen : ArtistAlbumViewController}
    (hk : s'.screens.find? k = some screen) :
    screen.settled.alerts = [] ∨ ∃ old, s.screens.find? k = some old ∧
      (screen.settled.alerts = old.settled.alerts ∨
        screen.settled.alerts = old.settled.alerts ++ (s.newFailure (.album k) l).toList) := by
  have hstays : s.screens.find? k = some screen → ∃ old, s.screens.find? k = some old ∧
      (screen.settled.alerts = old.settled.alerts ∨
        screen.settled.alerts = old.settled.alerts ++ (s.newFailure (.album k) l).toList) :=
    fun hold => ⟨screen, hold, .inl rfl⟩
  have hquiet : ∀ {al : AlbumLabel}, (∀ result, al ≠ .response result) → ∀ isViewLoaded e,
      ArtistAlbumViewController.announced isViewLoaded al = some e → (none : Option APIError) = some e := by
    intro al hal isViewLoaded e he
    cases al with
    | response result => exact absurd rfl (hal result)
    | viewDidLoad | layout | main | viewForSupplementaryElement | didSelectItemAt => cases he
  have hacted : ∀ {j : ℕ} {old new : ArtistAlbumViewController} {al : AlbumLabel},
      s.screens.find? j = some old → old.step F al = some new → (∀ result, al ≠ .response result) →
      (s.screens.update j fun _ => new).find? k = some screen → ∃ old, s.screens.find? k = some old ∧
        (screen.settled.alerts = old.settled.alerts ∨
          screen.settled.alerts = old.settled.alerts ++ (s.newFailure (.album k) l).toList) := by
    intro j old new al hj hnew hal hk
    obtain ⟨old, hold, hsame | ⟨-, hsame⟩⟩ := hs.alerts_update hj hnew (hquiet hal) hk
    · exact ⟨old, hold, .inl hsame⟩
    · exact ⟨old, hold, .inl (hsame.trans (List.append_nil _))⟩
  cases step_effect h with
  | typed | quiet | searched | auth | mainSearch | mainGone | ignored => exact .inr (hstays hk)
  | mainAlbum j queue old new hq hj hm => exact .inr (hacted hj hm (fun _ h => by cases h) hk)
  | acted j action old new hj hm => exact .inr (hacted hj hm (fun _ => action_ne_response _ _) hk)
  | popped j old hj => exact .inr (hstays (Pool.find?_finish_eq_some.mp hk).2)
  | opened row artist client hrow hsel hc =>
    simp only [Pool.find?_start] at hk
    split_ifs at hk with hnew
    · cases hk
      exact .inl rfl
    · exact .inr (hstays hk)
  | answered task t outcome client endpoint owner ht hc hcall =>
    right
    have hfailure : s.newFailure (.album k) (.response task outcome) =
        failureOf s.calls (.album k) (t.call.id, t.call.endpoint.handler outcome) := by
      rw [newFailure, ht, Option.bind_some]
    cases owner with
    | search i =>
      unfold complete at hk
      cases hresult : artistsResult (t.call.endpoint.handler outcome) with
      | none => rw [hresult] at hk; exact hstays hk
      | some result => rw [hresult] at hk; exact hstays hk
    | album j =>
      obtain ⟨-, hscreen⟩ := hs.linked.album _ _ _ hcall
      unfold complete at hk
      simp only at hk
      split at hk
      · rename_i old result hj hresult
        have hawait : old.awaiting = true := (hscreen old hj).2 (hs.linked.ledger.not_answered ht)
        have hstep : old.step F (.response result) = some (old.answer result) := if_pos hawait
        have herror : ∀ isViewLoaded e,
            ArtistAlbumViewController.announced isViewLoaded (.response result) = some e →
            failureOf s.calls (.album j) (t.call.id, t.call.endpoint.handler outcome) = some e := by
          intro isViewLoaded e he
          rw [failureOf_eq hcall]
          cases hhandler : t.call.endpoint.handler outcome with
          | ok payload =>
            rw [hhandler] at hresult
            cases payload <;> cases hresult
            cases he
          | error error =>
            rw [hhandler] at hresult
            cases hresult
            cases isViewLoaded <;> cases he
            exact if_pos rfl
        obtain ⟨old', hold, hsame | ⟨rfl, hsame⟩⟩ := hs.alerts_update hj hstep herror hk
        · exact ⟨old', hold, .inl hsame⟩
        · exact ⟨old', hold, .inr (hfailure ▸ hsame)⟩
      · exact hstays hk

/-! ### Runs -/

/-- What the screens have announced, once their events are handled. -/
structure Announces (F : Foundation) (formatted : Int → String) (s : BrowseApp β) : Prop where
  displays : Displays F formatted s
  shows : s.search.ShowsViewModel
  search : s.search.settled.alerts = s.failures .search
  album : ∀ k screen, s.screens.find? k = some screen →
    screen.settled.alerts.Sublist (s.failures (.album k))
  profile : ∀ c ∈ s.calls, c.1 ≠ .getUserProfile

theorem announces_launch (d : UserDefaults) (t uptime : Date) :
    Announces F formatted (launch d t uptime : BrowseApp β) where
  displays := displays_launch d t uptime
  shows := ⟨rfl, rfl⟩
  search := rfl
  album := fun k screen h => by cases h
  profile := fun c h => by cases h

/-- No screen asks for the profile. -/
theorem profile_step {l : BrowseLabel β} (h : s.step F formatted l = some s')
    (hs : ∀ c ∈ s.calls, c.1 ≠ .getUserProfile) : ∀ c ∈ s'.calls, c.1 ≠ .getUserProfile := by
  have hadded : ∀ {endpoint : Endpoint} {owner : Owner}, endpoint ≠ .getUserProfile →
      ∀ c ∈ s.calls ++ [(endpoint, owner)], c.1 ≠ .getUserProfile := by
    intro endpoint owner hne c hc
    rcases List.mem_append.mp hc with hold | hnew
    · exact hs c hold
    · obtain rfl := List.mem_singleton.mp hnew
      exact hne
  cases step_effect h with
  | typed | quiet | auth | mainSearch | mainGone | mainAlbum | ignored | acted | popped => exact hs
  | searched | opened => exact hadded fun h => by cases h
  | answered task t outcome client endpoint owner ht hc hcall =>
    rw [(complete_frame owner (t.call.endpoint.handler outcome)).2.1]
    exact hs

theorem Announces.step (hs : Announces F formatted s) {l : BrowseLabel β}
    (h : s.step F formatted l = some s') : Announces F formatted s' := by
  have hfailures : ∀ screen, s'.failures screen = s.failures screen ++ (s.newFailure screen l).toList :=
    fun screen => hs.displays.linked.failures_step h
  -- the step of the search screen, on a screen that settles alike
  obtain ⟨v, hv, hsame⟩ := search_simulates F formatted s s.search l s' ⟨hs.displays.linked, rfl⟩ h
  obtain ⟨hshows, halerts⟩ := SearchViewController.settled_exec hs.shows hv
  constructor
  · exact hs.displays.step h
  · constructor
    · rw [← hsame.2, hshows.loader, hsame.viewModel]
    · rw [← hsame.2, hshows.rows, hsame.viewModel]
  · rw [← hsame.2, halerts, hs.search, searchLabels_failure h, hfailures]
  · intro k screen hk
    rw [hfailures]
    rcases hs.displays.alerts_step h hk with hnone | ⟨old, hold, hkept | hnew⟩
    · rw [hnone]
      exact List.nil_sublist _
    · rw [hkept]
      exact (hs.album k old hold).trans (List.sublist_append_left _ _)
    · rw [hnew]
      exact (hs.album k old hold).append (List.Sublist.refl _)
  · exact profile_step h hs.profile

/-- Only the handler of the profile passes a body on. -/
theorem Announces.mem_failures (hs : Announces F formatted s) {error : APIError}
    (h : error ∈ s.failures screen) : error = .failedFetchingData ∨ error = .decoding := by
  obtain ⟨⟨c, result⟩, hmem, hfailure⟩ := List.mem_filterMap.mp h
  obtain ⟨e, o, he, -, rfl⟩ := hs.displays.linked.made.answers c result hmem
  rw [List.getElem?_map] at he
  obtain ⟨⟨endpoint, owner⟩, hcall, rfl⟩ := Option.map_eq_some_iff.mp he
  have hne : endpoint ≠ .getUserProfile := hs.profile _ (List.mem_of_getElem? hcall)
  rw [failureOf_eq hcall] at hfailure
  cases o with
  | networkError =>
    left
    cases endpoint <;> simp [Endpoint.handler] at hfailure <;> exact hfailure.2.symm
  | undecodable text =>
    right
    cases endpoint with
    | getUserProfile => exact absurd rfl hne
    | getartistProfile | getArtistAlbum => simp [Endpoint.handler] at hfailure; exact hfailure.2.symm
  | decoded payload =>
    rw [Endpoint.handler_decoded] at hfailure
    cases hfailure

/-- **What is announced was answered.**  In every run of the app, the settled search screen has announced the
failures of its searches, each once and in the order of the answers, and an album screen only failures of its
own call.  The alert says that fetching failed, or what the decoder says: a body of the server is never shown. -/
theorem alerts_answered (F : Foundation) (formatted : Int → String) (d : UserDefaults) (t uptime : Date)
    (ls : List (BrowseLabel β)) (s : BrowseApp β)
    (h : Runs.exec (step F formatted) (launch d t uptime) ls = some s) :
    s.search.settled.alerts = s.failures .search ∧
    (∀ k screen, s.screens.find? k = some screen →
      screen.settled.alerts.Sublist (s.failures (.album k))) ∧
    ∀ screen, ∀ error ∈ s.failures screen, ∀ description,
      error.showAlert description ∈ ["Failed to fetch data!", description] := by
  have hs : Announces F formatted s :=
    Runs.exec_inv (fun _ _ _ hs hl => Announces.step hs hl) (announces_launch d t uptime) h
  refine ⟨hs.search, hs.album, ?_⟩
  intro screen error herror description
  rcases hs.mem_failures herror with rfl | rfl
  · exact List.mem_cons_self
  · exact List.mem_cons_of_mem _ (List.mem_singleton_self _)

/-- A body that is no JSON answers a search, and the network fails under the albums of the next one. -/
def failed : List (BrowseLabel ℕ) :=
  [.textDidChange "a", .uptime (1 / 4), .fire 0, .propagate 0,
    .response 0 (.undecodable (some "Bad Gateway")), .main, .main, .textDidChange "b", .uptime (1 / 2),
    .fire 1, .propagate 1, .response 1 (.decoded (.artists (SearchViewController.found "AB"))), .main, .main,
    .didSelectItemAt 0, .album 0 .viewDidLoad, .response 2 .networkError]

theorem failed_announced : ∃ s screen,
    Runs.exec (step Foundation.ascii fun n => toString n) (launch signedIn 0 0) failed = some s ∧
    s.search.settled.alerts = [.decoding] ∧ s.screens.find? 0 = some screen ∧
    screen.settled.alerts.Sublist [.failedFetchingData] := by
  obtain ⟨s, hs, hscreen, hsearch, halbum⟩ : ∃ s,
      Runs.exec (step Foundation.ascii fun n => toString n) (launch signedIn 0 0) failed = some s ∧
      (s.screens.find? 0).isSome = true ∧ s.failures .search = [.decoding] ∧
      s.failures (.album 0) = [.failedFetchingData] := Runs.exec_of_any (by decide +kernel)
  obtain ⟨screen, hk⟩ := Option.isSome_iff_exists.mp hscreen
  obtain ⟨hsettled, hscreens, -⟩ := alerts_answered _ _ _ _ _ failed s hs
  exact ⟨s, screen, hs, hsettled.trans hsearch, hk, halbum ▸ hscreens 0 screen hk⟩

end BrowseApp

end Spotify
