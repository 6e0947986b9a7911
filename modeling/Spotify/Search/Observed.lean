import Spotify.Rx.ObserveOn
import Spotify.Search.Settled

/-!
# Spotify.Search.Observed — the search screen on the main scheduler

The screen was modelled with an `observe` of its own.  Here that is the scheduler: every run of the screen is a
run of `MainScheduler` with the same queue, in which the alerts and the loader are those of the events whose
action has begun (`events_scheduled`).
-/

namespace Spotify.SearchViewController

variable {s s' : SearchViewController}

/-- The steps of the inbox behind a step of the screen. -/
def inboxLabels (s : SearchViewController) : SearchLabel → List (Inbox.Label SearchViewController RelayEvent)
  | .textDidChange searchText => [.modify (textDidChange searchText)]
  | .debounce =>
    match s.viewModel.searchText with
    | none => []
    | some text =>
      let r := s.viewModel.searchTextEmitted text
      .modify (fun u => { u with viewModel := r.1 }) :: r.2.map (.observe true)
  | .response search result =>
    let vm := { s.viewModel with searches := s.viewModel.searches.finish search }
    let r := vm.getArtistsCompletion result
    .modify (fun u => { u with viewModel := r.1 }) :: r.2.map (.observe false)
  | .main => [.take]

def alert : RelayEvent → Option APIError
  | .onError error => some error
  | _ => none

def loading : RelayEvent → Option Bool
  | .isLoading value => some value
  | _ => none

/-- What the loader and the alerts show after the events `es`. -/
structure Rendered (s : SearchViewController) (es : List RelayEvent) : Prop where
  alerts : es.filterMap alert = s.alerts
  loader : (es.filterMap loading).getLast?.getD false = s.loader

theorem Rendered.deliver {es : List RelayEvent} (h : Rendered s es) (e : RelayEvent) :
    Rendered (s.deliver e) (es ++ [e]) := by
  constructor
  · rw [List.filterMap_append, h.alerts]
    cases e with
    | onError error => rfl
    | isLoading | reload => exact List.append_nil _
  · rw [List.filterMap_append]
    cases e with
    | isLoading value => simp [loading, SearchViewController.deliver]
    | onError | reload =>
      show (es.filterMap loading ++ []).getLast?.getD false = s.loader
      rw [List.append_nil, h.loader]

/-- The screen as an inbox, with the events it has handled. -/
def Observed (s : SearchViewController) (r : Inbox SearchViewController RelayEvent × List RelayEvent) : Prop :=
  r.1 = s.inbox ∧ Rendered s r.2

theorem observed_observe {r : Inbox SearchViewController RelayEvent × List RelayEvent} (h : Observed s r)
    (onMain : Bool) (e : RelayEvent) :
    ∃ r', Runs.logged (Inbox.step SearchViewController.deliver) r (.observe onMain e) = some r' ∧
      Observed (s.observe onMain e) r' := by
  obtain ⟨b, es⟩ := r
  obtain ⟨rfl, hes⟩ := h
  refine ⟨(s.inbox.observe SearchViewController.deliver onMain e,
    es ++ if onMain = true ∧ s.mainQueue = [] then [e] else []), ?_, (inbox_observe onMain e).symm, ?_⟩
  · exact Runs.logged_eq_some.mpr ⟨_, rfl, rfl⟩
  show Rendered (s.observe onMain e) (es ++ if onMain = true ∧ s.mainQueue = [] then [e] else [])
  unfold observe
  split
  · exact hes.deliver e
  · rw [List.append_nil]
    exact ⟨hes.alerts, hes.loader⟩

theorem observed_foldl {r : Inbox SearchViewController RelayEvent × List RelayEvent} (h : Observed s r)
    (onMain : Bool) (es : List RelayEvent) :
    ∃ r', Runs.exec (Runs.logged (Inbox.step SearchViewController.deliver)) r (es.map (.observe onMain)) =
        some r' ∧
      Observed (es.foldl (observe onMain) s) r' := by
  induction es generalizing s r with
  | nil => exact ⟨r, rfl, h⟩
  | cons e es ih =>
    obtain ⟨r₁, hr₁, h₁⟩ := observed_observe h onMain e
    obtain ⟨r', hr', h'⟩ := ih h₁
    exact ⟨r', (Runs.exec_cons_some hr₁ _).trans hr', h'⟩

/-- Another view model, and the events that it sends. -/
theorem observed_update {r : Inbox SearchViewController RelayEvent × List RelayEvent} (h : Observed s r)
    (onMain : Bool) (u : SearchViewModel × List RelayEvent) :
    ∃ r', Runs.exec (Runs.logged (Inbox.step SearchViewController.deliver)) r
        (.modify (fun v => { v with viewModel := u.1 }) :: u.2.map (.observe onMain)) = some r' ∧
      Observed (s.update onMain u) r' := by
  obtain ⟨b, es⟩ := r
  obtain ⟨rfl, hes⟩ := h
  have hmodify : Runs.logged (Inbox.step SearchViewController.deliver) (s.inbox, es)
      (.modify fun v => { v with viewModel := u.1 }) =
        some (({ s with viewModel := u.1 } : SearchViewController).inbox, es) :=
    Runs.logged_eq_some.mpr ⟨[], rfl, (List.append_nil es).symm⟩
  obtain ⟨r', hr', h'⟩ := observed_foldl (s := { s with viewModel := u.1 }) (r := (_, es))
    ⟨rfl, hes.alerts, hes.loader⟩ onMain u.2
  exact ⟨r', (Runs.exec_cons_some hmodify _).trans hr', h'⟩

theorem observed_simulates : Runs.Simulates SearchViewController.step
    (Runs.logged (Inbox.step SearchViewController.deliver)) inboxLabels Observed := by
  rintro s ⟨b, es⟩ l s' h hl
  cases l with
  | textDidChange text =>
    cases hl
    obtain ⟨rfl, hes⟩ := h
    have hframe : (s.textDidChange text).inbox = ⟨textDidChange text s.inbox.state, s.inbox.queue⟩ ∧
        (s.textDidChange text).alerts = s.alerts ∧ (s.textDidChange text).loader = s.loader := by
      unfold textDidChange
      split <;> exact ⟨rfl, rfl, rfl⟩
    obtain ⟨hinbox, halerts, hloader⟩ := hframe
    refine ⟨((s.textDidChange text).inbox, es), ?_, rfl, hes.alerts.trans halerts.symm,
      hes.loader.trans hloader.symm⟩
    have hmodify : Runs.logged (Inbox.step SearchViewController.deliver) (s.inbox, es)
        (.modify (textDidChange text)) = some ((s.textDidChange text).inbox, es) :=
      Runs.logged_eq_some.mpr ⟨[], congrArg (fun b => some (b, [])) hinbox.symm, (List.append_nil es).symm⟩
    rw [inboxLabels, Runs.exec_cons_some hmodify, Runs.exec_nil]
  | debounce =>
    obtain ⟨text, htext, rfl⟩ := Option.map_eq_some_iff.mp hl
    rw [inboxLabels, htext]
    exact observed_update h true _
  | response search result =>
    obtain ⟨text, -, rfl⟩ := Option.map_eq_some_iff.mp hl
    exact observed_update h false _
  | main =>
    obtain ⟨rfl, hes⟩ := h
    have htake := take_inbox.mpr ⟨s', hl, rfl⟩
    cases hq : s.mainQueue with
    | nil => rw [step, hq] at hl; cases hl
    | cons e queue =>
      have hs' : s' = ({ s with mainQueue := queue } : SearchViewController).deliver e := by
        rw [step, hq] at hl
        exact (Option.some.inj hl).symm
      have hlogged : Runs.logged (Inbox.step SearchViewController.deliver) (s.inbox, es) .take =
          some (s'.inbox, es ++ [e]) := by
        refine Runs.logged_eq_some.mpr ⟨[e], ?_, rfl⟩
        have hhead : s.inbox.queue.take 1 = [e] := by rw [inbox, hq]; rfl
        rw [Inbox.step, htake, Option.map_some, hhead]
      refine ⟨(s'.inbox, es ++ [e]), ?_, rfl, ?_⟩
      · rw [inboxLabels, Runs.exec_cons_some hlogged, Runs.exec_nil]
      · rw [hs']
        have hrest : Rendered ({ s with mainQueue := queue } : SearchViewController) es :=
          ⟨hes.alerts, hes.loader⟩
        exact hrest.deliver e

theorem length_inboxLabels (s : SearchViewController) (l : SearchLabel) : (inboxLabels s l).length ≤ 3 := by
  cases l with
  | textDidChange | main => exact Nat.le_of_ble_eq_true rfl
  | debounce =>
    rw [inboxLabels]
    cases s.viewModel.searchText with
    | none => exact Nat.zero_le 3
    | some text =>
      have hevents : (s.viewModel.searchTextEmitted text).2.length ≤ 2 := by
        unfold SearchViewModel.searchTextEmitted
        dsimp only
        split
        · exact Nat.le_refl 2
        · exact Nat.le_succ 1
      rw [List.length_cons, List.length_map]
      omega
  | response search result => cases result <;> exact Nat.le_of_ble_eq_true rfl

theorem length_trace_inboxLabels (ls : List SearchLabel) :
    (Runs.trace step inboxLabels launch ls).length ≤ 3 * ls.length :=
  Runs.length_trace_le length_inboxLabels launch ls

/-- The calls of the scheduler, and its actions, behind the steps of a run. -/
def schedulerLabels (ls : List SearchLabel) : List (SchedulerLabel RelayEvent) :=
  Runs.trace (Runs.logged (Inbox.step deliver)) (fun b => MainScheduler.calls b.1) (launch.inbox, [])
    (Runs.trace step inboxLabels launch ls)

/-- **The events of the screen go through the scheduler.**  Every run of the screen with fewer than 2^29 steps
is a run of the main scheduler that ends with the same queue: the alerts are those of the events whose action
has begun, in that order, and the loader shows the last of their values. -/
theorem events_scheduled (ls : List SearchLabel) (s : SearchViewController) (hb : ls.length < 2 ^ 29)
    (h : Runs.exec step launch ls = some s) :
    ∃ scheduler log,
      Runs.exec (Runs.logged MainScheduler.step) (MainScheduler.launch, []) (schedulerLabels ls) =
        some (scheduler, log) ∧
      scheduler.mainQueue.map Prod.snd = s.mainQueue ∧ scheduler.entering = [] ∧ scheduler.running = [] ∧
      (log.map Prod.snd).filterMap alert = s.alerts ∧
      ((log.map Prod.snd).filterMap loading).getLast?.getD false = s.loader := by
  have h0 : Observed launch (launch.inbox, []) := ⟨rfl, rfl, rfl⟩
  obtain ⟨⟨b, es⟩, hinbox, rfl, hes⟩ := observed_simulates.exec h0 h
  have hlen := length_trace_inboxLabels ls
  obtain ⟨scheduler, log, hrun, hqueue, hlog, hentering, hrunning⟩ :=
    MainScheduler.inbox_scheduled deliver launch _ s.inbox es (by omega) hinbox
  refine ⟨scheduler, log, hrun, hqueue, hentering, hrunning, ?_, ?_⟩
  · rw [hlog, hes.alerts]
  · rw [hlog, hes.loader]

/-- A search fails while another one is on its way; the main thread takes one event of two. -/
theorem failure_scheduled : ∃ s scheduler log,
    Runs.exec step launch (twoSearches ++ [.response 1 (.error .failedFetchingData), .main]) = some s ∧
    Runs.exec (Runs.logged MainScheduler.step) (MainScheduler.launch, [])
      [.schedule .main (RelayEvent.isLoading true), .finish, .schedule .main (RelayEvent.isLoading true), .finish,
        .schedule (.background 0) (RelayEvent.isLoading false), .enqueue (.background 0),
        .schedule (.background 0) (RelayEvent.onError .failedFetchingData), .enqueue (.background 0),
        .begin, .finish] =
      some (scheduler, log) ∧
    scheduler.mainQueue.map Prod.snd = [RelayEvent.onError .failedFetchingData] := by
  obtain ⟨s, hs, hqueue⟩ : ∃ s,
      Runs.exec step launch (twoSearches ++ [.response 1 (.error .failedFetchingData), .main]) = some s ∧
      s.mainQueue = [RelayEvent.onError .failedFetchingData] := Runs.exec_of_any (by decide +kernel)
  obtain ⟨scheduler, log, hrun, hmain, -⟩ := events_scheduled _ s (by decide) hs
  exact ⟨s, scheduler, log, hs, hrun, hmain.trans hqueue⟩

end Spotify.SearchViewController
