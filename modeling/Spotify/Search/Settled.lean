import Spotify.Search.Display
import Spotify.Lib.Inbox

/-!
# Spotify.Search.Settled — the search screen once its events are handled

Responses come on another thread, so what they send waits in the main queue while texts, taps and other
responses come in between.  Seen through `settled`, every event counts as handled when it is sent; so the
screen always catches up with its view model (`search_settles`).
-/

namespace Spotify.SearchViewController

variable {s s' : SearchViewController} {ls : List SearchLabel}

/-- The screen without its queue, and the queue. -/
def inbox (s : SearchViewController) : Inbox SearchViewController RelayEvent :=
  ⟨{ s with mainQueue := [] }, s.mainQueue⟩

/-- The screen once the main thread has handled what waits. -/
def settled (s : SearchViewController) : SearchViewController := s.inbox.settled deliver

/-- The failure that an answer brings. -/
def failure : SearchLabel → Option APIError
  | .response _ (.error error) => some error
  | _ => none

theorem inbox_deliver (e : RelayEvent) : (s.deliver e).inbox = ⟨s.inbox.state.deliver e, s.mainQueue⟩ := by
  cases e <;> rfl

theorem inbox_observe (onMain : Bool) (e : RelayEvent) :
    (s.observe onMain e).inbox = s.inbox.observe deliver onMain e := by
  unfold observe Inbox.observe inbox
  by_cases h : onMain = true ∧ s.mainQueue = []
  · rw [if_pos h, if_pos h]
    exact inbox_deliver e
  · rw [if_neg h, if_neg h]

theorem take_inbox {b : Inbox SearchViewController RelayEvent} :
    s.inbox.take deliver = some b ↔ ∃ s', s.step .main = some s' ∧ s'.inbox = b := by
  cases hq : s.mainQueue with
  | nil =>
    have htake : s.inbox.take deliver = none := by rw [Inbox.take, inbox, hq]
    simp [htake, step, hq]
  | cons e queue =>
    have htake : s.inbox.take deliver = some ⟨s.inbox.state.deliver e, queue⟩ := by
      rw [Inbox.take, inbox, hq]
    have hbox := inbox_deliver (s := { s with mainQueue := queue }) e
    simp only [step, hq, htake, Option.some.injEq, exists_eq_left', hbox]
    rfl

/-- The events of an update, on the settled screen. -/
theorem settled_update (onMain : Bool) (r : SearchViewModel × List RelayEvent) :
    (s.update onMain r).settled = r.2.foldl deliver ({ s with viewModel := r.1 } : SearchViewController).settled := by
  unfold update
  generalize ({ s with viewModel := r.1 } : SearchViewController) = u
  induction r.2 generalizing u with
  | nil => rfl
  | cons e es ih =>
    have hstep : (u.observe onMain e).settled = u.settled.deliver e := by
      rw [settled, inbox_observe, Inbox.settled_observe, settled]
    rw [List.foldl_cons, List.foldl_cons, ih, hstep]

theorem settled_of_empty (h : s.mainQueue = []) : s.settled = s := by
  obtain ⟨viewModel, mainQueue, loader, alerts, rows⟩ := s
  obtain rfl : mainQueue = [] := h
  rfl

/-- The main thread gets there by taking the events one after the other. -/
theorem exec_main (s : SearchViewController) :
    Runs.exec step s (List.replicate s.mainQueue.length .main) = some s.settled := by
  obtain ⟨t, ht, hbox⟩ := Inbox.exec_replicate (fun s b => take_inbox.mp) s
  have hq : t.mainQueue = [] := congrArg Inbox.queue hbox
  have hst : t = s.settled := by
    rw [← settled_of_empty hq, settled, hbox]
    rfl
  rw [← hst]
  exact ht

/-- A reload among the events makes the rows before them irrelevant. -/
theorem foldl_deliver_rows {es : List RelayEvent} (h : .reload ∈ es) {rows rows' : ℕ} :
    es.foldl deliver { s with rows := rows } = es.foldl deliver { s with rows := rows' } := by
  induction es generalizing s rows rows' with
  | nil => cases h
  | cons e es ih =>
    rw [List.foldl_cons, List.foldl_cons]
    cases e with
    | reload => rfl
    | isLoading value => exact ih (s := { s with loader := value }) (by simpa using h)
    | onError error => exact ih (s := { s with alerts := s.alerts ++ [error] }) (by simpa using h)

/-- Another view model, or other rows, under events that wait: only the row count can tell. -/
theorem foldl_deliver_viewModel (vm : SearchViewModel) (rows : ℕ) (queue : List RelayEvent)
    (u : SearchViewController) : ∃ rows',
    queue.foldl deliver { u with viewModel := vm, rows := rows } =
      { queue.foldl deliver u with viewModel := vm, rows := rows' } ∧
    (rows' = rows ∨ rows' = vm.numberOfItems) ∧
    (vm.numberOfItems = u.viewModel.numberOfItems → rows = u.rows → rows' = (queue.foldl deliver u).rows) := by
  induction queue generalizing u rows with
  | nil => exact ⟨rows, rfl, .inl rfl, fun _ h => h⟩
  | cons e queue ih =>
    have hstep : ∃ rows₁, ({ u with viewModel := vm, rows := rows } : SearchViewController).deliver e =
        { u.deliver e with viewModel := vm, rows := rows₁ } ∧
        (rows₁ = rows ∨ rows₁ = vm.numberOfItems) ∧
        (vm.numberOfItems = u.viewModel.numberOfItems → rows = u.rows → rows₁ = (u.deliver e).rows) := by
      cases e with
      | reload => exact ⟨_, rfl, .inr rfl, fun hn _ => hn⟩
      | isLoading | onError => exact ⟨rows, rfl, .inl rfl, fun _ h => h⟩
    obtain ⟨rows₁, heq, hrows₁, hsame₁⟩ := hstep
    obtain ⟨rows', heq', hrows', hsame'⟩ := ih rows₁ (u.deliver e)
    refine ⟨rows', ?_, ?_, fun hn hr => ?_⟩
    · rw [List.foldl_cons, List.foldl_cons, heq, heq']
    · rcases hrows' with rfl | h
      · exact hrows₁
      · exact .inr h
    · exact hsame' (by rw [viewModel_deliver, hn]) (hsame₁ hn hr)

theorem settled_viewModel (vm : SearchViewModel) (rows : ℕ) : ∃ rows',
    ({ s with viewModel := vm, rows := rows } : SearchViewController).settled =
      { s.settled with viewModel := vm, rows := rows' } ∧
    (rows' = rows ∨ rows' = vm.numberOfItems) ∧
    (vm.numberOfItems = s.viewModel.numberOfItems → rows = s.rows → rows' = s.settled.rows) :=
  foldl_deliver_viewModel vm rows s.mainQueue s.inbox.state

/-- A view model with as many items. -/
theorem settled_sameItems (vm : SearchViewModel) (hn : vm.numberOfItems = s.viewModel.numberOfItems) :
    ({ s with viewModel := vm } : SearchViewController).settled = { s.settled with viewModel := vm } := by
  obtain ⟨rows', heq, -, hsame⟩ := settled_viewModel (s := s) vm s.rows
  rw [hsame hn rfl] at heq
  exact heq

/-- The settled screen shows what the view model holds. -/
structure ShowsViewModel (s : SearchViewController) : Prop where
  loader : s.settled.loader = s.viewModel.isLoading
  rows : s.settled.rows = s.viewModel.numberOfItems

/-- The bar is cleared. -/
theorem settled_cleared : (s.textDidChange "").settled = { s.settled with
    viewModel := { s.viewModel with searchText := some "", artistArray := some [] }
    rows := s.viewModel.numberOfItems } := by
  obtain ⟨rows', heq, hrows, -⟩ := settled_viewModel (s := s)
    { s.viewModel with searchText := some "", artistArray := some [] } s.viewModel.numberOfItems
  obtain rfl : rows' = s.viewModel.numberOfItems := hrows.elim id id
  exact heq

/-- A text is typed. -/
theorem settled_typed {text : String} (ht : text ≠ "") : (s.textDidChange text).settled =
    { s.settled with viewModel := { s.viewModel with searchText := some (replacingSpaces text) } } := by
  have heq : s.textDidChange text = { s with
      viewModel := { s.viewModel with searchText := some (replacingSpaces text) } } := if_neg ht
  rw [heq]
  exact settled_sameItems (s := s) { s.viewModel with searchText := some (replacingSpaces text) } rfl

/-- A text is searched for. -/
theorem settled_emitted (text : String) :
    (s.update true (s.viewModel.searchTextEmitted text)).settled.loader = true ∧
    (s.update true (s.viewModel.searchTextEmitted text)).settled.alerts = s.settled.alerts ∧
    ((s.update true (s.viewModel.searchTextEmitted text)).settled.rows = s.settled.rows ∨
      (s.update true (s.viewModel.searchTextEmitted text)).settled.rows = s.viewModel.numberOfItems) := by
  have hset := settled_update (s := s) true (s.viewModel.searchTextEmitted text)
  have hvm := settled_sameItems (s := s) (s.viewModel.searchTextEmitted text).1
  by_cases ht : text = ""
  · subst ht
    rw [hset, hvm rfl]
    exact ⟨rfl, rfl, .inr rfl⟩
  · rw [SearchViewModel.searchTextEmitted, if_neg ht] at hset hvm ⊢
    rw [hset, hvm rfl]
    exact ⟨rfl, rfl, .inl rfl⟩

theorem searchTextEmitted_frame (vm : SearchViewModel) (text : String) :
    (vm.searchTextEmitted text).1.numberOfItems = vm.numberOfItems ∧
    (vm.searchTextEmitted text).1.isLoading = true := by
  unfold SearchViewModel.searchTextEmitted
  split <;> exact ⟨rfl, rfl⟩

/-- A search is answered with artists, or with a failure. -/
theorem settled_found (vm : SearchViewModel) (model : ArtistsSearchResponse) :
    (s.update false (vm.getArtistsCompletion (.ok model))).settled.loader = false ∧
    (s.update false (vm.getArtistsCompletion (.ok model))).settled.rows =
      (vm.getArtistsCompletion (.ok model)).1.numberOfItems ∧
    (s.update false (vm.getArtistsCompletion (.ok model))).settled.alerts = s.settled.alerts := by
  obtain ⟨rows', heq, -⟩ := settled_viewModel (s := s) (vm.getArtistsCompletion (.ok model)).1 s.rows
  have hvm : ({ s with viewModel := (vm.getArtistsCompletion (.ok model)).1 } :
      SearchViewController).settled =
        { s.settled with viewModel := (vm.getArtistsCompletion (.ok model)).1, rows := rows' } := heq
  rw [settled_update, hvm]
  exact ⟨rfl, rfl, rfl⟩

theorem settled_failed (vm : SearchViewModel) (error : APIError)
    (hn : vm.numberOfItems = s.viewModel.numberOfItems) :
    (s.update false (vm.getArtistsCompletion (.error error))).settled.loader = false ∧
    (s.update false (vm.getArtistsCompletion (.error error))).settled.rows = s.settled.rows ∧
    (s.update false (vm.getArtistsCompletion (.error error))).settled.alerts = s.settled.alerts ++ [error] := by
  have hset := settled_update (s := s) false (vm.getArtistsCompletion (.error error))
  rw [hset, settled_sameItems (s := s) (vm.getArtistsCompletion (.error error)).1 hn]
  exact ⟨rfl, rfl, rfl⟩

theorem settled_step (hs : ShowsViewModel s) {l : SearchLabel} (h : s.step l = some s') :
    ShowsViewModel s' ∧ s'.settled.alerts = s.settled.alerts ++ (failure l).toList := by
  cases l with
  | textDidChange text =>
    cases h
    by_cases ht : text = ""
    · subst ht
      refine ⟨⟨?_, ?_⟩, ?_⟩ <;> rw [settled_cleared]
      · exact hs.loader
      · rfl
      · exact (List.append_nil _).symm
    · have hvm : (s.textDidChange text).viewModel =
          { s.viewModel with searchText := some (replacingSpaces text) } :=
        congrArg SearchViewController.viewModel (if_neg ht)
      refine ⟨⟨?_, ?_⟩, ?_⟩ <;> rw [settled_typed ht]
      · rw [hvm, hs.loader]
      · rw [hvm, hs.rows]
        rfl
      · exact (List.append_nil _).symm
  | debounce =>
    obtain ⟨text, -, rfl⟩ := Option.map_eq_some_iff.mp h
    obtain ⟨hloader, halerts, hrows⟩ := settled_emitted (s := s) text
    obtain ⟨hn, hload⟩ := searchTextEmitted_frame s.viewModel text
    refine ⟨⟨?_, ?_⟩, halerts.trans (List.append_nil _).symm⟩
    · rw [hloader, viewModel_update, hload]
    · rw [viewModel_update, hn]
      exact hrows.elim (fun h => h.trans hs.rows) id
  | response search result =>
    obtain ⟨text, -, rfl⟩ := Option.map_eq_some_iff.mp h
    cases result with
    | ok model =>
      obtain ⟨hloader, hrows, halerts⟩ := settled_found (s := s)
        { s.viewModel with searches := s.viewModel.searches.finish search } model
      refine ⟨⟨?_, ?_⟩, halerts.trans (List.append_nil _).symm⟩
      · rw [hloader, viewModel_update]
        rfl
      · rw [hrows, viewModel_update]
    | error error =>
      obtain ⟨hloader, hrows, halerts⟩ := settled_failed (s := s)
        { s.viewModel with searches := s.viewModel.searches.finish search } error rfl
      refine ⟨⟨?_, ?_⟩, halerts⟩
      · rw [hloader, viewModel_update]
        rfl
      · rw [hrows, viewModel_update]
        exact hs.rows
  | main =>
    have hset : s'.settled = s.settled := Inbox.settled_take (take_inbox.mpr ⟨s', h, rfl⟩)
    have hvm : s'.viewModel = s.viewModel := by
      have he := step_effect h
      generalize s'.viewModel = vm at he
      cases he
      rfl
    refine ⟨⟨?_, ?_⟩, ?_⟩ <;> rw [hset]
    · rw [hvm, hs.loader]
    · rw [hvm, hs.rows]
    · exact (List.append_nil _).symm

theorem settled_exec (hs : ShowsViewModel s) (h : Runs.exec step s ls = some s') :
    ShowsViewModel s' ∧ s'.settled.alerts = s.settled.alerts ++ ls.filterMap failure := by
  induction ls generalizing s with
  | nil =>
    cases h
    exact ⟨hs, (List.append_nil _).symm⟩
  | cons l ls ih =>
    obtain ⟨u, hu, h⟩ := Option.bind_eq_some_iff.mp h
    obtain ⟨hs', halerts⟩ := settled_step hs hu
    obtain ⟨hend, halerts'⟩ := ih hs' h
    refine ⟨hend, ?_⟩
    rw [halerts', halerts, List.append_assoc]
    cases hl : failure l with
    | none => rw [List.filterMap_cons_none hl, Option.toList_none, List.nil_append]
    | some error => rw [List.filterMap_cons_some hl, Option.toList_some, List.singleton_append]

/-- The view model is left alone while the queue is emptied. -/
theorem viewModel_settled (s : SearchViewController) : s.settled.viewModel = s.viewModel := by
  suffices h : ∀ (queue : List RelayEvent) (u : SearchViewController),
      (queue.foldl deliver u).viewModel = u.viewModel from h s.mainQueue s.inbox.state
  intro queue
  induction queue with
  | nil => exact fun u => rfl
  | cons e queue ih => exact fun u => (ih (u.deliver e)).trans (viewModel_deliver e)

/-! ### Two screens that differ in what waits -/

/-- Screens that settle alike still do when the same text is typed. -/
theorem settled_textDidChange_congr {u : SearchViewController} (h : u.settled = s.settled) (text : String) :
    (u.textDidChange text).settled = (s.textDidChange text).settled := by
  have hvm : u.viewModel = s.viewModel := by rw [← viewModel_settled u, h, viewModel_settled]
  by_cases ht : text = ""
  · subst ht
    rw [settled_cleared, settled_cleared, h, hvm]
  · rw [settled_typed ht, settled_typed ht, h, hvm]

/-- And when the same events come, one screen on the main thread and the other one not: either the row count
stays, or a reload is among the events. -/
theorem settled_update_congr {u : SearchViewController} (h : u.settled = s.settled) (onMain onMain' : Bool)
    {r : SearchViewModel × List RelayEvent}
    (hr : r.1.numberOfItems = s.viewModel.numberOfItems ∨ .reload ∈ r.2) :
    (u.update onMain r).settled = (s.update onMain' r).settled := by
  have hvm : u.viewModel = s.viewModel := by rw [← viewModel_settled u, h, viewModel_settled]
  rw [settled_update, settled_update]
  rcases hr with hn | hmem
  · rw [settled_sameItems (s := u) r.1 (by rw [hn, hvm]), settled_sameItems (s := s) r.1 hn, h]
  · obtain ⟨rows, heq, -⟩ := settled_viewModel (s := u) r.1 u.rows
    obtain ⟨rows', heq', -⟩ := settled_viewModel (s := s) r.1 s.rows
    have heq : ({ u with viewModel := r.1 } : SearchViewController).settled =
        { u.settled with viewModel := r.1, rows := rows } := heq
    have heq' : ({ s with viewModel := r.1 } : SearchViewController).settled =
        { s.settled with viewModel := r.1, rows := rows' } := heq'
    rw [heq, heq', h]
    exact foldl_deliver_rows (s := { s.settled with viewModel := r.1 }) hmem

/-- **The search screen settles.**  From every state of a run, however the answers and the main thread were
interleaved, handling what waits leads to a screen whose loader and row count are those of the view model,
and which has announced every failed search once, in the order of the answers. -/
theorem search_settles (ls : List SearchLabel) (s : SearchViewController)
    (h : Runs.exec step launch ls = some s) :
    Runs.exec step s (List.replicate s.mainQueue.length .main) = some s.settled ∧
    s.settled.viewModel = s.viewModel ∧
    s.settled.loader = s.viewModel.isLoading ∧
    s.settled.rows = s.viewModel.numberOfItems ∧
    s.settled.alerts = ls.filterMap failure := by
  have h0 : ShowsViewModel launch := ⟨rfl, rfl⟩
  obtain ⟨hs, halerts⟩ := settled_exec h0 h
  exact ⟨exec_main s, viewModel_settled s, hs.loader, hs.rows, halerts⟩

/-- Two searches fail and a third succeeds before the main thread takes any event. -/
theorem late_events_settle : ∃ s,
    Runs.exec step launch (twoSearches ++ [.textDidChange "abc", .debounce,
      .response 1 (.error .failedFetchingData), .response 2 (.ok (found "ABC")),
      .response 0 (.error (.custom "busy"))]) = some s ∧
    s.mainQueue.length = 6 ∧ s.rows = 0 ∧ s.settled.rows = 1 ∧
    s.settled.alerts = [.failedFetchingData, .custom "busy"] := by
  obtain ⟨s, hs, hqueue, hrows, hitems⟩ : ∃ s, Runs.exec step launch
      (twoSearches ++ [.textDidChange "abc", .debounce, .response 1 (.error .failedFetchingData),
        .response 2 (.ok (found "ABC")), .response 0 (.error (.custom "busy"))]) = some s ∧
      s.mainQueue.length = 6 ∧ s.rows = 0 ∧ s.viewModel.numberOfItems = 1 :=
    Runs.exec_of_any (by decide +kernel)
  obtain ⟨-, -, -, hsettled, halerts⟩ := search_settles _ s hs
  exact ⟨s, hs, hqueue, hrows, hsettled.trans hitems, halerts.trans (by decide)⟩

end Spotify.SearchViewController
