import Spotify.Rx.Relays
import Spotify.Search.Observed

/-!
# Spotify.Search.Relayed — the relays between the view model and its screen

The screen was modelled as if an event were there as soon as the view model accepts it.  Here the events of a
run go through the relays `isLoading` and `onError`, with their subjects and bags; the screen is their one
subscriber.  What the relays tell it is what it has shown with what is queued for the main thread, and the
value of `isLoading` is that of the view model (`relays_rendered`).
-/

namespace Spotify.SearchViewController

variable {s s' : SearchViewController} {ls : List SearchLabel}

/-- The events that a step hands to the relays. -/
def sent (s : SearchViewController) : SearchLabel → List RelayEvent
  | .textDidChange _ | .main => []
  | .debounce =>
    match s.viewModel.searchText with
    | none => []
    | some text => (s.viewModel.searchTextEmitted text).2
  | .response search result =>
    let vm := { s.viewModel with searches := s.viewModel.searches.finish search }
    (vm.getArtistsCompletion result).2

/-- The events of a run. -/
def events (ls : List SearchLabel) : List RelayEvent := Runs.trace step sent launch ls

theorem filterMap_observe (onMain : Bool) (es : List RelayEvent) :
    (es.map (@Inbox.Label.observe SearchViewController RelayEvent onMain)).filterMap Inbox.observed = es := by
  induction es with
  | nil => rfl
  | cons e es ih => exact congrArg (List.cons e) ih

theorem sent_eq (s : SearchViewController) (l : SearchLabel) :
    (inboxLabels s l).filterMap Inbox.observed = sent s l := by
  cases l with
  | textDidChange | main => rfl
  | debounce =>
    rw [inboxLabels, sent]
    cases s.viewModel.searchText with
    | none => rfl
    | some text => exact filterMap_observe true _
  | response search result => exact filterMap_observe false _

/-- Every event was rendered or is queued, in the order in which they were sent. -/
theorem rendered_or_queued (h : Runs.exec step launch ls = some s) :
    ∃ shown, Rendered s shown ∧ shown ++ s.mainQueue = events ls := by
  have h0 : Observed launch (launch.inbox, []) := ⟨rfl, rfl, rfl⟩
  obtain ⟨⟨b, shown⟩, hinbox, rfl, hshown⟩ := observed_simulates.exec h0 h
  have hfifo := Inbox.exec_fifo hinbox
  rw [Runs.trace_filterMap] at hfifo
  refine ⟨shown, hshown, ?_⟩
  have hsent : (fun s l => (inboxLabels s l).filterMap Inbox.observed) = sent :=
    funext fun s => funext fun l => sent_eq s l
  rw [hsent] at hfifo
  exact hfifo

theorem isLoading_step {l : SearchLabel} (h : s.step l = some s') :
    s'.viewModel.isLoading = ((sent s l).filterMap loading).getLast?.getD s.viewModel.isLoading := by
  cases l with
  | textDidChange text =>
    cases h
    unfold textDidChange
    split <;> rfl
  | debounce =>
    obtain ⟨text, htext, rfl⟩ := Option.map_eq_some_iff.mp h
    rw [viewModel_update, sent, htext]
    unfold SearchViewModel.searchTextEmitted
    dsimp only
    split <;> rfl
  | response search result =>
    obtain ⟨text, -, rfl⟩ := Option.map_eq_some_iff.mp h
    rw [viewModel_update]
    cases result <;> rfl
  | main =>
    have he := step_effect h
    generalize s'.viewModel = vm at he ⊢
    cases he
    rfl

/-- The flag of the view model is the last value that it handed to the relay. -/
theorem isLoading_exec (h : Runs.exec step s ls = some s') : s'.viewModel.isLoading =
    ((Runs.trace step sent s ls).filterMap loading).getLast?.getD s.viewModel.isLoading := by
  induction ls generalizing s with
  | nil =>
    cases h
    rfl
  | cons l ls ih =>
    obtain ⟨u, hu, h⟩ := Option.bind_eq_some_iff.mp h
    rw [ih h, isLoading_step hu, Runs.trace_cons hu, List.filterMap_append, List.getLast?_append]
    cases ((Runs.trace step sent u ls).filterMap loading).getLast? <;> rfl

/-- **The relays of the search screen.**  For every run of the screen, what it hands to `isLoading` and `onError`
makes runs of the two relays, with the screen as the one subscriber, in which nothing is lost and the order is
kept: the errors that the screen is told are its alerts, then those queued for the main thread; the values of
`isLoading` that it is told are those it has shown, the loader shows the last of them, then those queued; and the
value of that relay is the flag of the view model. -/
theorem relays_rendered (order : ValueOrder Unit) (ls : List SearchLabel) (s : SearchViewController)
    (h : Runs.exec step launch ls = some s) :
    ∃ isLoading values onError errors,
      Runs.exec (Runs.logged (BehaviorRelay.step order)) (BehaviorRelay.launch false, [])
        (.subscribe () :: RelayLabel.atOnce 0 ((events ls).filterMap loading)) = some (isLoading, values) ∧
      Runs.exec (Runs.logged (PublishRelay.step order)) (PublishRelay.launch, [])
        (.subscribe () :: RelayLabel.atOnce 0 ((events ls).filterMap alert)) = some (onError, errors) ∧
      BehaviorRelay.value isLoading = some s.viewModel.isLoading ∧
      (∃ shown, shown.getLast? = some s.loader ∧
        values.map Notice.event = (shown ++ s.mainQueue.filterMap loading).map RxEvent.next) ∧
      errors.map Notice.event = (s.alerts ++ s.mainQueue.filterMap alert).map RxEvent.next := by
  obtain ⟨shown, hshown, hevents⟩ := rendered_or_queued h
  obtain ⟨isLoading, values, hloading, hvalues, hvalue⟩ :=
    BehaviorRelay.accepted_atOnce false order () ((events ls).filterMap loading)
  obtain ⟨onError, errors, herror, herrors⟩ :=
    PublishRelay.accepted_atOnce order () ((events ls).filterMap alert)
  refine ⟨isLoading, values, onError, errors, hloading, herror, ?_, ?_, ?_⟩
  · rw [hvalue, isLoading_exec h]
    rfl
  · refine ⟨false :: shown.filterMap loading, ?_, ?_⟩
    · rw [List.getLast?_cons, hshown.loader]
    · rw [hvalues, ← hevents, List.filterMap_append, List.cons_append]
  · rw [herrors, ← hevents, List.filterMap_append, hshown.alerts]

/-- The second of two searches has failed, and the main thread has taken one of the two events of the failure. -/
def failedSearch : List SearchLabel := twoSearches ++ [.response 1 (.error .failedFetchingData), .main]

theorem failure_relayed : ∃ isLoading values onError errors,
    Runs.exec (Runs.logged (BehaviorRelay.step (ValueOrder.inserted Unit))) (BehaviorRelay.launch false, [])
      [.subscribe (), .accept true, .tell 0, .accept true, .tell 1, .accept false, .tell 2] =
        some (isLoading, values) ∧
    Runs.exec (Runs.logged (PublishRelay.step (ValueOrder.inserted Unit))) (PublishRelay.launch, [])
      [.subscribe (), .accept APIError.failedFetchingData, .tell 0] = some (onError, errors) ∧
    BehaviorRelay.value isLoading = some false ∧
    errors.map Notice.event = [.next .failedFetchingData] := by
  obtain ⟨s, hs, hflag, halerts, hqueue⟩ : ∃ s, Runs.exec step launch failedSearch = some s ∧
      s.viewModel.isLoading = false ∧ s.alerts = [] ∧ s.mainQueue = [.onError .failedFetchingData] :=
    Runs.exec_of_any (by decide +kernel)
  obtain ⟨isLoading, values, onError, errors, hloading, herror, hvalue, -, herrors⟩ :=
    relays_rendered (ValueOrder.inserted Unit) failedSearch s hs
  have hvalues : (events failedSearch).filterMap loading = [true, true, false] := by decide +kernel
  have hfailed : (events failedSearch).filterMap alert = [.failedFetchingData] := by decide +kernel
  rw [hvalues] at hloading
  rw [hfailed] at herror
  rw [hflag] at hvalue
  rw [halerts, hqueue] at herrors
  exact ⟨isLoading, values, onError, errors, hloading, herror, hvalue, herrors⟩

end Spotify.SearchViewController
