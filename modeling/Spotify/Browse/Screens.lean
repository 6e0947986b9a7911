import Spotify.Browse.Linked

/-!
# Spotify.Browse.Screens — the album screens of the app

A step of the app is at most one step of each album screen (`screen_step`).  So each screen is in a state that
its own machine reaches (`screens_reachable`), and the albums and artists on display were answered to a call
that the same screen made (`answers_on_display`).
-/

namespace Spotify.BrowseApp

variable {β : Type} {F : Foundation} {formatted : Int → String} {s s' : BrowseApp β}
  {ls : List (BrowseLabel β)}

/-! ### What is answered -/

/-- The album was the answer to a call of the screen `k`. -/
def AnsweredAlbum (s : BrowseApp β) (k : ℕ) (endpoint : Endpoint) (album : Album) : Prop :=
  ∃ c, s.calls[c]? = some (endpoint, .album k) ∧ (c, .ok (.album album)) ∈ s.client.answers

/-- The artists were the answer to a search. -/
def AnsweredArtists (s : BrowseApp β) (model : ArtistsSearchResponse) : Prop :=
  ∃ c text search, s.calls[c]? = some (.getartistProfile text, .search search) ∧
    (c, .ok (.artists model)) ∈ s.client.answers

theorem albumResult_ok {result : Except APIError Payload} {album : Album}
    (h : albumResult result = some (.ok album)) : result = .ok (.album album) := by
  unfold albumResult at h
  split at h <;> cases h
  rfl

theorem artistsResult_ok {result : Except APIError Payload} {model : ArtistsSearchResponse}
    (h : artistsResult result = some (.ok model)) : result = .ok (.artists model) := by
  unfold artistsResult at h
  split at h <;> cases h
  rfl

/-- Calls and answers are only added. -/
theorem step_grows {l : BrowseLabel β} (h : s.step F formatted l = some s') :
    s.calls <+: s'.calls ∧ s.client.answers <+: s'.client.answers := by
  have hkept : ∀ {al : APILabel β} {client : APIClient β}, (∀ task o, al ≠ .response task o) →
      s.client.step F al = some client → s.client.answers <+: client.answers := by
    intro al client hal hc
    have hsame := APIClient.answers_step hal hc
    exact hsame ▸ List.prefix_rfl
  cases step_effect h with
  | typed | quiet | mainSearch | mainGone | mainAlbum | ignored | acted | popped =>
    exact ⟨List.prefix_rfl, List.prefix_rfl⟩
  | searched k text debounce out client hd hem hv hv' hc | opened row artist client hrow hsel hc =>
    exact ⟨List.prefix_append _ _, hkept (fun _ _ h => by cases h) hc⟩
  | auth l client hc => exact ⟨List.prefix_rfl, hkept (fun _ _ h => by cases h) hc⟩
  | answered task t outcome client endpoint owner ht hc hcall =>
    obtain ⟨hclient, hcalls, -⟩ := complete_frame (s := { s with client := client }) owner
      (t.call.endpoint.handler outcome)
    obtain ⟨t', -, -, rfl⟩ := APIClient.step_response hc
    rw [hclient, hcalls]
    exact ⟨List.prefix_rfl, List.prefix_append _ _⟩

theorem AnsweredAlbum.step {l : BrowseLabel β} (h : s.step F formatted l = some s') {k : ℕ}
    {endpoint : Endpoint} {album : Album} (ha : AnsweredAlbum s k endpoint album) :
    AnsweredAlbum s' k endpoint album := by
  obtain ⟨c, hc, hmem⟩ := ha
  obtain ⟨hcalls, hanswers⟩ := step_grows h
  exact ⟨c, getElem?_of_prefix hcalls hc, hanswers.subset hmem⟩

theorem AnsweredArtists.step {l : BrowseLabel β} (h : s.step F formatted l = some s')
    {model : ArtistsSearchResponse} (ha : AnsweredArtists s model) : AnsweredArtists s' model := by
  obtain ⟨c, text, search, hc, hmem⟩ := ha
  obtain ⟨hcalls, hanswers⟩ := step_grows h
  exact ⟨c, text, search, getElem?_of_prefix hcalls hc, hanswers.subset hmem⟩

/-! ### One step, seen from a screen -/

/-- What makes the screen `k` take a label: an album comes with an answer to its own call. -/
def Caused (s : BrowseApp β) (k : ℕ) (screen : ArtistAlbumViewController) : AlbumLabel → Prop
  | .response (.ok album) => AnsweredAlbum s k screen.viewModel.endpoint album
  | _ => True

theorem caused_of_ne {k : ℕ} {screen : ArtistAlbumViewController} {l : AlbumLabel}
    (hl : ∀ result, l ≠ .response result) : Caused s k screen l := by
  cases l with
  | response result => exact absurd rfl (hl result)
  | viewDidLoad | layout | main | viewForSupplementaryElement | didSelectItemAt => trivial

/-- A screen takes a step while the others stay. -/
theorem find?_update_screen {k j : ℕ} {old new screen : ArtistAlbumViewController} {l : AlbumLabel}
    (hk : s.screens.find? k = some old) (hl : old.step F l = some new) (hcause : Caused s' k old l)
    (hj : (s.screens.update k fun _ => new).find? j = some screen) :
    s.screens.find? j = some screen ∨
      ∃ old l, s.screens.find? j = some old ∧ old.step F l = some screen ∧ Caused s' j old l := by
  rw [Pool.find?_update] at hj
  split_ifs at hj with hjk
  · subst hjk
    rw [hk] at hj
    cases hj
    exact .inr ⟨old, l, hk, hl, hcause⟩
  · exact .inl hj

/-- **A step of the app is at most one step of each album screen.** -/
theorem Linked.screen_step (hs : Linked s) {l : BrowseLabel β} (h : s.step F formatted l = some s') {j : ℕ}
    {screen : ArtistAlbumViewController} (hj : s'.screens.find? j = some screen) :
    (∃ artist, screen = ArtistAlbumViewController.launch formatted artist) ∨
    s.screens.find? j = some screen ∨
    ∃ old al, s.screens.find? j = some old ∧ old.step F al = some screen ∧ Caused s' j old al := by
  cases step_effect h with
  | typed | quiet | searched | auth | mainSearch | mainGone | ignored => exact .inr (.inl hj)
  | mainAlbum k queue old new hq hk hm =>
    exact .inr (find?_update_screen hk hm (caused_of_ne fun _ h => by cases h) hj)
  | acted k action old new hk hm =>
    exact .inr (find?_update_screen hk hm (caused_of_ne fun _ => action_ne_response _ _) hj)
  | popped k old hk => exact .inr (.inl (Pool.find?_finish_eq_some.mp hj).2)
  | opened row artist client hrow hsel hc =>
    simp only [Pool.find?_start] at hj
    split_ifs at hj with hnew
    · cases hj
      exact .inl ⟨artist, rfl⟩
    · exact .inr (.inl hj)
  | answered task t outcome client endpoint owner ht hc hcall =>
    obtain ⟨t', ht', -, rfl⟩ := APIClient.step_response hc
    obtain rfl : t = t' := Option.some.inj (ht.symm.trans ht')
    right
    cases owner with
    | search i =>
      unfold complete at hj
      cases hresult : artistsResult (t.call.endpoint.handler outcome) with
      | none => rw [hresult] at hj; exact .inl hj
      | some result => rw [hresult] at hj; exact .inl hj
    | album k =>
      obtain ⟨-, hscreen⟩ := hs.album _ _ _ hcall
      unfold complete at hj
      simp only at hj
      split at hj
      · rename_i old result hk hresult
        have hawait : old.awaiting = true := (hscreen old hk).2 (hs.ledger.not_answered ht)
        have hstep : old.step F (.response result) = some (old.answer result) := if_pos hawait
        refine find?_update_screen hk hstep ?_ hj
        cases result with
        | error error => trivial
        | ok album =>
          refine ⟨t.call.id, ?_, ?_⟩
          · rw [← (hscreen old hk).1, ← hcall]
            exact congrArg (·[t.call.id]?) (complete_frame _ _).2.1
          · rw [(complete_frame _ _).1, albumResult_ok hresult]
            exact List.mem_append_right _ (List.mem_singleton_self _)
      · exact .inl hj

/-! ### Runs -/

/-- The screens are states that their own machine reaches, and what is on display was answered to them. -/
structure Displays (F : Foundation) (formatted : Int → String) (s : BrowseApp β) : Prop where
  linked : Linked s
  reachable : ∀ k screen, s.screens.find? k = some screen → Runs.Reachable (ArtistAlbumViewController.step F)
    (fun u => ∃ artist, u = ArtistAlbumViewController.launch formatted artist) screen
  album : ∀ k screen, s.screens.find? k = some screen → ∀ album, screen.viewModel.album = some album →
    AnsweredAlbum s k (.getArtistAlbum screen.viewModel.artistId) album
  artists : ∀ model, s.search.viewModel.artistResponse = some model → AnsweredArtists s model

theorem displays_launch (d : UserDefaults) (t uptime : Date) :
    Displays F formatted (launch d t uptime : BrowseApp β) where
  linked := linked_launch d t uptime
  reachable := fun k screen h => by cases h
  album := fun k screen h => by cases h
  artists := fun model h => by cases h

/-- The album that a step of its screen puts on display. -/
theorem album_caused {k : ℕ} {old screen : ArtistAlbumViewController} {l : AlbumLabel}
    (hl : old.step F l = some screen) (hcause : Caused s' k old l) {album : Album}
    (ha : screen.viewModel.album = some album) :
    screen.viewModel.artistId = old.viewModel.artistId ∧
    (old.viewModel.album = some album ∨ AnsweredAlbum s' k (.getArtistAlbum old.viewModel.artistId) album) := by
  by_cases hresponse : ∃ result, l = .response result
  · obtain ⟨result, rfl⟩ := hresponse
    cases ArtistAlbumViewController.step_effect hl with
    | answered result hawait =>
      obtain ⟨hvm, -⟩ := ArtistAlbumViewController.answer_frame (s := old) result
      rw [hvm] at ha ⊢
      cases result with
      | ok album' =>
        cases ha
        exact ⟨rfl, .inr hcause⟩
      | error error => exact ⟨rfl, .inl ha⟩
  · obtain ⟨hvm, -⟩ := ArtistAlbumViewController.viewModel_step (fun r hr => hresponse ⟨r, hr⟩) hl
    rw [hvm] at ha ⊢
    exact ⟨rfl, .inl ha⟩

/-- The artists that a step puts on display. -/
theorem Linked.artists_caused (hs : Linked s) {l : BrowseLabel β} (h : s.step F formatted l = some s')
    {model : ArtistsSearchResponse} (hm : s'.search.viewModel.artistResponse = some model) :
    s.search.viewModel.artistResponse = some model ∨ AnsweredArtists s' model := by
  cases step_effect h with
  | quiet | auth | mainGone | mainAlbum | ignored | opened | acted | popped => exact .inl hm
  | typed text =>
    left
    rw [← hm]
    simp only [SearchViewController.textDidChange]
    split <;> rfl
  | searched k text debounce out client hd hem hv hv' hc =>
    left
    rw [← hm]
    simp only [withSearch, SearchViewController.viewModel_update, SearchViewModel.searchTextEmitted]
    split <;> rfl
  | mainSearch queue search hq hmain => exact .inl (viewModel_main hmain ▸ hm)
  | answered task t outcome client endpoint owner ht hc hcall =>
    obtain ⟨t', ht', -, rfl⟩ := APIClient.step_response hc
    obtain rfl : t = t' := Option.some.inj (ht.symm.trans ht')
    cases owner with
    | album k =>
      left
      rw [← hm]
      unfold complete
      simp only
      split <;> rfl
    | search i =>
      obtain ⟨-, text, he, -⟩ := hs.search _ _ _ hcall
      unfold complete at hm ⊢
      cases hresult : artistsResult (t.call.endpoint.handler outcome) with
      | none =>
        rw [hresult] at hm
        exact .inl hm
      | some result =>
        rw [hresult] at hm
        simp only [withSearch, SearchViewController.viewModel_update] at hm
        cases result with
        | error error => exact .inl hm
        | ok model' =>
          cases hm
          refine .inr ⟨t.call.id, text, i, he ▸ hcall, ?_⟩
          rw [artistsResult_ok hresult]
          exact List.mem_append_right _ (List.mem_singleton_self _)

theorem Displays.step (hs : Displays F formatted s) {l : BrowseLabel β}
    (h : s.step F formatted l = some s') : Displays F formatted s' where
  linked := hs.linked.step h
  reachable := by
    intro k screen hk
    rcases hs.linked.screen_step h hk with ⟨artist, rfl⟩ | hold | ⟨old, al, hold, hal, -⟩
    · exact Runs.Reachable.of_init ⟨artist, rfl⟩
    · exact hs.reachable k screen hold
    · exact (hs.reachable k old hold).tail hal
  album := by
    intro k screen hk album ha
    rcases hs.linked.screen_step h hk with ⟨artist, rfl⟩ | hold | ⟨old, al, hold, hal, hcause⟩
    · cases ha
    · exact (hs.album k screen hold album ha).step h
    · obtain ⟨hid, hkept | hnew⟩ := album_caused hal hcause ha
      · rw [hid]
        exact (hs.album k old hold album hkept).step h
      · rw [hid]
        exact hnew
  artists := by
    intro model hm
    rcases hs.linked.artists_caused h hm with hkept | hnew
    · exact (hs.artists model hkept).step h
    · exact hnew

theorem displays_exec {d : UserDefaults} {t uptime : Date}
    (h : Runs.exec (BrowseApp.step F formatted) (launch d t uptime) ls = some s) : Displays F formatted s :=
  Runs.exec_inv (fun _ _ _ hs hl => Displays.step hs hl) (displays_launch d t uptime) h

/-- **Each screen is its own machine.**  However the user, the timers, the answers and the main thread are
interleaved, every album screen of the app is in a state that it would reach alone. -/
theorem screens_reachable (F : Foundation) (formatted : Int → String) (d : UserDefaults) (t uptime : Date)
    (ls : List (BrowseLabel β)) (s : BrowseApp β)
    (h : Runs.exec (step F formatted) (launch d t uptime) ls = some s) (k : ℕ)
    (screen : ArtistAlbumViewController) (hk : s.screens.find? k = some screen) :
    Runs.Reachable (ArtistAlbumViewController.step F)
      (fun u => ∃ artist, u = ArtistAlbumViewController.launch formatted artist) screen :=
  (displays_exec h).reachable k screen hk

theorem browsed_reachable : ∃ s screen,
    Runs.exec (step Foundation.ascii fun n => toString n) (launch signedIn 0 0) browsed = some s ∧
    s.screens.find? 0 = some screen ∧ Runs.Reachable (ArtistAlbumViewController.step Foundation.ascii)
      (fun u => ∃ artist, u = ArtistAlbumViewController.launch (fun n => toString n) artist) screen := by
  obtain ⟨s, hs, hscreen⟩ : ∃ s,
      Runs.exec (step Foundation.ascii fun n => toString n) (launch signedIn 0 0) browsed = some s ∧
      (s.screens.find? 0).isSome = true := Runs.exec_of_any (by decide +kernel)
  obtain ⟨screen, hk⟩ := Option.isSome_iff_exists.mp hscreen
  exact ⟨s, screen, hs, hk, screens_reachable _ _ _ _ _ browsed s hs 0 screen hk⟩

/-- **Nothing is shown on the wrong screen.**  In every run, the albums on a screen are the answer that the
client gave to a call made for that screen, with the identifier of its artist; the artists of the search
screen are the answer to one of its searches. -/
theorem answers_on_display (F : Foundation) (formatted : Int → String) (d : UserDefaults) (t uptime : Date)
    (ls : List (BrowseLabel β)) (s : BrowseApp β)
    (h : Runs.exec (step F formatted) (launch d t uptime) ls = some s) :
    (∀ k screen album, s.screens.find? k = some screen → screen.viewModel.album = some album →
      AnsweredAlbum s k (.getArtistAlbum screen.viewModel.artistId) album) ∧
    ∀ model, s.search.viewModel.artistResponse = some model → AnsweredArtists s model := by
  have hs : Displays F formatted s := displays_exec h
  exact ⟨fun k screen album hk ha => hs.album k screen hk album ha, hs.artists⟩

theorem browsed_on_display : ∃ s,
    Runs.exec (step Foundation.ascii fun n => toString n) (launch signedIn 0 0) browsed = some s ∧
    AnsweredAlbum s 0 (.getArtistAlbum "AB") ArtistAlbumViewController.twoAlbums ∧
    AnsweredArtists s (SearchViewController.found "AB") := by
  obtain ⟨s, hs, hscreen, hmodel⟩ : ∃ s,
      Runs.exec (step Foundation.ascii fun n => toString n) (launch signedIn 0 0) browsed = some s ∧
      (s.screens.find? 0).map (fun screen => (screen.viewModel.artistId, screen.viewModel.album)) =
        some ("AB", some ArtistAlbumViewController.twoAlbums) ∧
      s.search.viewModel.artistResponse = some (SearchViewController.found "AB") := Runs.exec_of_any (by decide +kernel)
  obtain ⟨screen, hk, heq⟩ := Option.map_eq_some_iff.mp hscreen
  obtain ⟨hid, halbum⟩ := Prod.mk.inj heq
  obtain ⟨halbums, hartists⟩ := answers_on_display _ _ _ _ _ browsed s hs
  exact ⟨s, hs, hid ▸ halbums 0 screen _ hk halbum, hartists _ hmodel⟩

end Spotify.BrowseApp
