import Spotify.Browse.Linked

/-!
# Spotify.Browse.Search — the search screen of the app

The search screen was modelled with a debounce that fires at any time and answers that come for any search in
flight.  Every run of the app is such a run: `searchLabels` names the steps of the screen that a step of the app
stands for, and both screens settle alike (`search_refines`).  What is searched for was typed, in that order
(`searches_typed`).
-/

namespace Spotify

/-- The text typed. -/
def SearchViewController.typed : SearchLabel → Option String
  | .textDidChange searchText => some searchText
  | _ => none

namespace BrowseApp

variable {β : Type} {F : Foundation} {formatted : Int → String} {s s' : BrowseApp β}
  {ls : List (BrowseLabel β)}

/-- The steps of the search screen that a step of the app stands for. -/
def searchLabels (s : BrowseApp β) : BrowseLabel β → List SearchLabel
  | .textDidChange searchText => [.textDidChange searchText]
  | .propagate timer => ((s.passes timer).map fun _ => SearchLabel.debounce).toList
  | .response task outcome =>
    match s.client.tasks.find? task with
    | none => []
    | some t =>
      match s.calls[t.call.id]?, artistsResult (t.call.endpoint.handler outcome) with
      | some (_, .search search), some result => [.response search result]
      | _, _ => []
  | _ => []

/-- The text typed. -/
def typed : BrowseLabel β → Option String
  | .textDidChange searchText => some searchText
  | _ => none

/-- The app, and a search screen of its own that settles alike. -/
def SameSearch (s : BrowseApp β) (u : SearchViewController) : Prop :=
  Linked s ∧ u.settled = s.search.settled

theorem SameSearch.viewModel {u : SearchViewController} (h : SameSearch s u) :
    u.viewModel = s.search.viewModel := by
  rw [← SearchViewController.viewModel_settled u, h.2, SearchViewController.viewModel_settled]

theorem getArtistsCompletion_rows (vm : SearchViewModel) (result : Except APIError ArtistsSearchResponse) :
    (vm.getArtistsCompletion result).1.numberOfItems = vm.numberOfItems ∨
      .reload ∈ (vm.getArtistsCompletion result).2 := by
  cases result with
  | ok model => exact .inr (by simp [SearchViewModel.getArtistsCompletion])
  | error error => exact .inl rfl

theorem passes_eq {k : ℕ} {debounce : DebounceSink String} {out : List (Passage String)}
    (h : s.debounce.step dueTime (.propagate k) = some (debounce, out)) : s.passes k = emitted out := by
  rw [passes, h, Option.bind_some]

theorem search_simulates (F : Foundation) (formatted : Int → String) :
    Runs.Simulates (step (β := β) F formatted) SearchViewController.step searchLabels SameSearch := by
  intro s u l s' hR hstep
  have hlinked : Linked s' := hR.1.step hstep
  have hvm : u.viewModel = s.search.viewModel := hR.viewModel
  have stays : searchLabels s l = [] → s'.search.settled = s.search.settled →
      ∃ v, Runs.exec SearchViewController.step u (searchLabels s l) = some v ∧ SameSearch s' v := by
    intro hl hset
    rw [hl]
    exact ⟨u, rfl, hlinked, hR.2.trans hset.symm⟩
  cases step_effect hstep with
  | typed text =>
    exact ⟨u.textDidChange text, rfl, hlinked, SearchViewController.settled_textDidChange_congr hR.2 text⟩
  | quiet l dl debounce out hl hin hd hem hv =>
    refine stays ?_ rfl
    cases l with
    | textDidChange text => cases hl; cases hin
    | propagate k =>
      cases hl
      rw [searchLabels, passes_eq hd, hem]
      rfl
    | fire | uptime => rfl
    | auth | response | main | didSelectItemAt | album | backButtonTapped => cases hl
  | searched k text debounce out client hd hem hv hv' hc =>
    have hp : s.passes k = some text := by rw [passes_eq hd, hem]
    have hheld : u.viewModel.searchText = some text := by rw [hvm, hR.1.value, hv]
    refine ⟨u.update true (u.viewModel.searchTextEmitted text), ?_, hlinked, ?_⟩
    · rw [searchLabels, hp]
      show Runs.exec SearchViewController.step u [.debounce] = _
      have hu : u.step .debounce = some (u.update true (u.viewModel.searchTextEmitted text)) := by
        rw [SearchViewController.step, hheld]
        rfl
      rw [Runs.exec_cons_some hu, Runs.exec_nil]
    · rw [hvm]
      exact SearchViewController.settled_update_congr hR.2 true s.idle
        (.inl (SearchViewController.searchTextEmitted_frame _ _).1)
  | answered task t outcome client endpoint owner ht hc hcall =>
    have hlabels : searchLabels s (.response task outcome) =
        match some (endpoint, owner), artistsResult (t.call.endpoint.handler outcome) with
        | some (_, .search search), some result => [.response search result]
        | _, _ => [] := by
      rw [searchLabels, ht, ← hcall]
    cases owner with
    | album k =>
      refine stays hlabels ?_
      unfold complete
      simp only
      split <;> rfl
    | search i =>
      obtain ⟨-, text, -, hflight⟩ := hR.1.search _ _ _ hcall
      have hfind : u.viewModel.searches.find? i = some text := hvm ▸ hflight (hR.1.ledger.not_answered ht)
      cases hresult : artistsResult (t.call.endpoint.handler outcome) with
      | none =>
        rw [hresult] at hlabels
        exact stays hlabels (by rw [complete_search_none hresult])
      | some result =>
        rw [hresult] at hlabels
        let vm := { u.viewModel with searches := u.viewModel.searches.finish i }
        have hu : u.step (.response i result) = some (u.update false (vm.getArtistsCompletion result)) := by
          rw [SearchViewController.step, hfind]
          rfl
        refine ⟨u.update false (vm.getArtistsCompletion result), ?_, hlinked, ?_⟩
        · rw [hlabels, Runs.exec_cons_some hu, Runs.exec_nil]
        · rw [complete_search hresult, ← hvm]
          refine SearchViewController.settled_update_congr hR.2 false false ?_
          rw [← hvm]
          exact getArtistsCompletion_rows vm result
  | mainSearch queue search hq hm =>
    refine stays rfl ?_
    exact Inbox.settled_take (SearchViewController.take_inbox.mpr ⟨search, hm, rfl⟩)
  | auth | mainGone | mainAlbum | ignored | opened | acted | popped => exact stays rfl rfl

/-- **The search screen of the app is the search screen.**  Every run of the app, whatever waits for the other
screens, is a run of the search screen alone, which gets the same texts, has the same view model and settles
to the same screen. -/
theorem search_refines (F : Foundation) (formatted : Int → String) (d : UserDefaults) (t uptime : Date)
    (ls : List (BrowseLabel β)) (s : BrowseApp β)
    (h : Runs.exec (step F formatted) (launch d t uptime) ls = some s) :
    ∃ u, Runs.exec SearchViewController.step SearchViewController.launch
        (Runs.trace (step F formatted) searchLabels (launch d t uptime) ls) = some u ∧
      u.viewModel = s.search.viewModel ∧ u.settled = s.search.settled ∧
      (Runs.trace (step F formatted) searchLabels (launch d t uptime) ls).filterMap
        SearchViewController.typed = ls.filterMap typed := by
  have h0 : SameSearch (launch d t uptime : BrowseApp β) SearchViewController.launch :=
    ⟨linked_launch d t uptime, rfl⟩
  obtain ⟨u, hu, hR⟩ := (search_simulates F formatted).exec h0 h
  refine ⟨u, hu, hR.viewModel, hR.2, Runs.filterMap_trace ?_ h⟩
  intro s l s' hl
  cases l with
  | textDidChange text | fire | uptime | auth | main | didSelectItemAt | album | backButtonTapped => rfl
  | propagate k =>
    rw [searchLabels]
    cases s.passes k <;> rfl
  | response task outcome =>
    rw [searchLabels]
    split
    · rfl
    · split <;> rfl

theorem browsed_search : ∃ s u,
    Runs.exec (step Foundation.ascii fun n => toString n) (launch signedIn 0 0) browsed = some s ∧
    Runs.exec SearchViewController.step SearchViewController.launch
      [.textDidChange "a b", .debounce, .response 0 (.ok (SearchViewController.found "AB"))] = some u ∧
    u.settled = s.search.settled := by
  obtain ⟨s, hs, htrace⟩ : ∃ s,
      Runs.exec (step Foundation.ascii fun n => toString n) (launch signedIn 0 0) browsed = some s ∧
      Runs.trace (step Foundation.ascii fun n => toString n) searchLabels (launch signedIn 0 0) browsed =
        [.textDidChange "a b", .debounce, .response 0 (.ok (SearchViewController.found "AB"))] :=
    Runs.exec_of_any (by decide +kernel)
  obtain ⟨u, hu, -, hsettled, -⟩ := search_refines _ _ _ _ _ browsed s hs
  exact ⟨s, u, hs, htrace ▸ hu, hsettled⟩

/-! ### What is searched for -/

end BrowseApp

end Spotify
