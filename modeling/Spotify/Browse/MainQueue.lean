import Spotify.Browse.Screens

/-!
# Spotify.Browse.MainQueue — one main thread for all screens

The events of all screens wait in one queue.  It holds exactly the events that the screens wait for
(`Queued`), so the main thread never gets stuck: when it has taken what is queued, every screen has settled
(`main_drains`), whatever the order in which the screens' events are mixed.
-/

namespace Spotify

namespace SearchViewController

variable {s s' : SearchViewController}

theorem length_observe (onMain : Bool) (e : RelayEvent) :
    s.mainQueue.length ≤ (s.observe onMain e).mainQueue.length := by
  unfold observe
  split
  · cases e <;> exact le_rfl
  · rw [List.length_append]
    exact Nat.le_add_right _ _

theorem length_update (onMain : Bool) (r : SearchViewModel × List RelayEvent) :
    s.mainQueue.length ≤ (s.update onMain r).mainQueue.length := by
  unfold update
  have hvm : s.mainQueue = ({ s with viewModel := r.1 } : SearchViewController).mainQueue := rfl
  rw [hvm]
  generalize ({ s with viewModel := r.1 } : SearchViewController) = u
  induction r.2 generalizing u with
  | nil => exact le_rfl
  | cons e es ih => exact (length_observe onMain e).trans (ih (u.observe onMain e))

theorem mainQueue_textDidChange (text : String) : (s.textDidChange text).mainQueue = s.mainQueue := by
  unfold textDidChange
  split <;> rfl

theorem step_main {e : RelayEvent} {queue : List RelayEvent} (hq : s.mainQueue = e :: queue) :
    s.step .main = some (({ s with mainQueue := queue } : SearchViewController).deliver e) := by
  rw [step, hq]

theorem mainQueue_main (h : s.step .main = some s') : ∃ e, s.mainQueue = e :: s'.mainQueue := by
  cases hq : s.mainQueue with
  | nil => rw [step, hq] at h; cases h
  | cons e queue =>
    rw [step_main hq] at h
    cases h
    cases e <;> exact ⟨_, rfl⟩

end SearchViewController

namespace ArtistAlbumViewController

variable {F : Foundation} {s s' : ArtistAlbumViewController}

theorem mainQueue_deliver (e : AlbumEvent) : (s.deliver e).mainQueue = s.mainQueue := by
  cases e with
  | headerModel model => cases model <;> rfl
  | isLoading | onError | openUrl | reload => rfl

theorem length_observe (idle : Bool) (e : AlbumEvent) :
    s.mainQueue.length ≤ (s.observe idle e).mainQueue.length := by
  unfold observe
  split
  · rw [mainQueue_deliver]
  · rw [List.length_append]
    exact Nat.le_add_right _ _

theorem length_send (idle : Bool) (es : List AlbumEvent) :
    s.mainQueue.length ≤ (s.send idle es).mainQueue.length := by
  unfold send
  split
  · generalize s = u
    induction es generalizing u with
    | nil => exact le_rfl
    | cons e es ih => exact (length_observe idle e).trans (ih (u.observe idle e))
  · exact le_rfl

theorem step_main {e : AlbumEvent} {queue : List AlbumEvent} (hq : s.mainQueue = e :: queue) :
    s.step F .main = some (({ s with mainQueue := queue } : ArtistAlbumViewController).deliver e) := by
  rw [step, hq]

theorem mainQueue_main (h : s.step F .main = some s') : ∃ e, s.mainQueue = e :: s'.mainQueue := by
  cases step_effect h with
  | delivered e queue hq => exact ⟨e, by rw [hq, mainQueue_deliver]⟩

theorem length_answer (result : Except APIError Album) :
    s.mainQueue.length ≤ (s.answer result).mainQueue.length :=
  length_send (s := { s with
    awaiting := false, viewModel := (s.viewModel.getArtistAlbumCompletion result).1 }) false _

/-- Only the main thread takes events from the queue. -/
theorem length_step {l : AlbumLabel} (hl : l ≠ .main) (h : s.step F l = some s') :
    s.mainQueue.length ≤ s'.mainQueue.length := by
  cases step_effect h with
  | loaded idle => exact length_observe (s := { s with isViewLoaded := true }) idle _
  | laidOut => exact le_rfl
  | answered result => exact length_answer result
  | delivered => exact absurd rfl hl
  | headed idle => exact length_observe idle _
  | tapped row idle es => exact length_send idle es

end ArtistAlbumViewController

namespace BrowseApp

variable {β : Type} {F : Foundation} {formatted : Int → String} {s s' : BrowseApp β}
  {ls : List (BrowseLabel β)}

/-- The queue of the main thread holds the events of the screens, and of screens that are gone. -/
structure Queued (s : BrowseApp β) : Prop where
  search : s.mainQueue.count .search = s.search.mainQueue.length
  album : ∀ k screen, s.screens.find? k = some screen →
    s.mainQueue.count (.album k) = screen.mainQueue.length
  fresh : ∀ k, .album k ∈ s.mainQueue → k < s.screens.next

theorem queued_launch (d : UserDefaults) (t uptime : Date) : Queued (launch d t uptime : BrowseApp β) where
  search := rfl
  album := fun k screen h => by cases h
  fresh := fun k h => absurd h List.not_mem_nil

/-! ### Steps -/

/-- A step that leaves all queues and screens alone. -/
theorem Queued.frame (hs : Queued s) (hq : s'.mainQueue = s.mainQueue)
    (hsearch : s'.search.mainQueue = s.search.mainQueue) (hscreens : s'.screens = s.screens) : Queued s' where
  search := by rw [hq, hsearch, hs.search]
  album := by rw [hq, hscreens]; exact hs.album
  fresh := by rw [hq, hscreens]; exact hs.fresh

theorem Queued.withSearch (hs : Queued s) {search : SearchViewController}
    (hle : s.search.mainQueue.length ≤ search.mainQueue.length) : Queued (s.withSearch search) where
  search := by
    show (s.mainQueue ++ List.replicate _ EventOwner.search).count .search = search.mainQueue.length
    rw [List.count_append, List.count_replicate_self, hs.search]
    omega
  album := by
    intro k screen hk
    show (s.mainQueue ++ List.replicate _ EventOwner.search).count (.album k) = screen.mainQueue.length
    rw [List.count_append, hs.album k screen hk, List.count_eq_zero.mpr, Nat.add_zero]
    intro hmem
    cases List.eq_of_mem_replicate hmem
  fresh := by
    intro k hmem
    rcases List.mem_append.mp hmem with hold | hnew
    · exact hs.fresh k hold
    · cases List.eq_of_mem_replicate hnew

theorem Queued.withScreen (hs : Queued s) {k : ℕ} {old new : ArtistAlbumViewController}
    (hk : s.screens.find? k = some old) (hle : old.mainQueue.length ≤ new.mainQueue.length) :
    Queued (s.withScreen k old new) where
  search := by
    show (s.mainQueue ++ List.replicate _ (EventOwner.album k)).count .search = s.search.mainQueue.length
    rw [List.count_append, hs.search, List.count_eq_zero.mpr, Nat.add_zero]
    intro hmem
    cases List.eq_of_mem_replicate hmem
  album := by
    intro j screen hj
    show (s.mainQueue ++ List.replicate _ (EventOwner.album k)).count (.album j) = screen.mainQueue.length
    simp only [BrowseApp.withScreen, Pool.find?_update] at hj
    rw [List.count_append]
    split_ifs at hj with hjk
    · subst hjk
      rw [hk, Option.map_some] at hj
      obtain rfl : new = screen := Option.some.inj hj
      rw [hs.album j old hk, List.count_replicate_self]
      omega
    · rw [hs.album j screen hj, List.count_eq_zero.mpr, Nat.add_zero]
      intro hmem
      exact hjk (EventOwner.album.inj (List.eq_of_mem_replicate hmem))
  fresh := by
    intro j hmem
    rcases List.mem_append.mp hmem with hold | hnew
    · exact hs.fresh j hold
    · cases List.eq_of_mem_replicate hnew
      have hlt : k < s.screens.next := Pool.find?_lt hk
      exact hlt

/-- The main thread takes an event of the search screen. -/
theorem Queued.mainSearch (hs : Queued s) {queue : List EventOwner} {search : SearchViewController}
    (hq : s.mainQueue = .search :: queue) (hm : s.search.step .main = some search) :
    Queued { s with search := search, mainQueue := queue } where
  search := by
    obtain ⟨e, he⟩ := SearchViewController.mainQueue_main hm
    have hcount := hs.search
    rw [hq, he, List.count_cons_self, List.length_cons] at hcount
    exact Nat.succ.inj hcount
  album := by
    intro k screen hk
    have hcount := hs.album k screen hk
    rw [hq, List.count_cons_of_ne (by exact fun h => by cases h)] at hcount
    exact hcount
  fresh := fun k hmem => hs.fresh k (hq ▸ List.mem_cons_of_mem _ hmem)

/-- An event of a screen that is gone. -/
theorem Queued.mainGone (hs : Queued s) {k : ℕ} {queue : List EventOwner}
    (hq : s.mainQueue = .album k :: queue) (hgone : s.screens.find? k = none) :
    Queued { s with mainQueue := queue } where
  search := by
    have hcount := hs.search
    rw [hq, List.count_cons_of_ne (by exact fun h => by cases h)] at hcount
    exact hcount
  album := by
    intro j screen hj
    have hjk : j ≠ k := by
      rintro rfl
      exact absurd (hgone.symm.trans hj) (by simp)
    have hcount := hs.album j screen hj
    rw [hq, List.count_cons_of_ne fun h => hjk (EventOwner.album.inj h).symm] at hcount
    exact hcount
  fresh := fun j hmem => hs.fresh j (hq ▸ List.mem_cons_of_mem _ hmem)

/-- An event of an album screen. -/
theorem Queued.mainAlbum (hs : Queued s) {k : ℕ} {queue : List EventOwner}
    (hq : s.mainQueue = .album k :: queue) {old new : ArtistAlbumViewController}
    (hk : s.screens.find? k = some old) (hm : old.step F .main = some new) :
    Queued { s with screens := s.screens.update k fun _ => new, mainQueue := queue } where
  search := by
    have hcount := hs.search
    rw [hq, List.count_cons_of_ne (by exact fun h => by cases h)] at hcount
    exact hcount
  album := by
    intro j screen hj
    simp only [Pool.find?_update] at hj
    split_ifs at hj with hjk
    · subst hjk
      rw [hk, Option.map_some] at hj
      obtain rfl : new = screen := Option.some.inj hj
      obtain ⟨e, he⟩ := ArtistAlbumViewController.mainQueue_main hm
      have hcount := hs.album j old hk
      rw [hq, he, List.count_cons_self, List.length_cons] at hcount
      exact Nat.succ.inj hcount
    · have hcount := hs.album j screen hj
      rw [hq, List.count_cons_of_ne fun h => hjk (EventOwner.album.inj h).symm] at hcount
      exact hcount
  fresh := fun j hmem => hs.fresh j (hq ▸ List.mem_cons_of_mem _ hmem)

/-- A new screen has nothing in the queue. -/
theorem Queued.opened (hs : Queued s) (artist : Artist) :
    Queued { s with screens := s.screens.start (ArtistAlbumViewController.launch formatted artist) } where
  search := hs.search
  album := by
    intro k screen hk
    simp only [Pool.find?_start] at hk
    split_ifs at hk with hnew
    · cases hk
      refine List.count_eq_zero.mpr fun hmem => ?_
      have hlt := hs.fresh k hmem
      omega
    · exact hs.album k screen hk
  fresh := fun k hmem => Nat.lt_succ_of_lt (hs.fresh k hmem)

theorem Queued.step (hs : Queued s) {l : BrowseLabel β} (hstep : s.step F formatted l = some s') :
    Queued s' := by
  cases step_effect hstep with
  | typed text => exact hs.frame rfl (SearchViewController.mainQueue_textDidChange text) rfl
  | quiet | auth | ignored => exact hs.frame rfl rfl rfl
  | searched k text debounce out client hd hem hv hv' hc =>
    exact (hs.withSearch (SearchViewController.length_update s.idle
      (s.search.viewModel.searchTextEmitted text))).frame rfl rfl rfl
  | answered task t outcome client endpoint owner ht hc hcall =>
    have hclient : Queued { s with client := client } := hs.frame rfl rfl rfl
    cases owner with
    | search i =>
      cases hresult : artistsResult (t.call.endpoint.handler outcome) with
      | none => rw [complete_search_none hresult]; exact hclient
      | some result =>
        rw [complete_search hresult]
        exact hclient.withSearch (SearchViewController.length_update false _)
    | album k =>
      unfold complete
      simp only
      split
      · rename_i screen result hk hresult
        exact hclient.withScreen hk (ArtistAlbumViewController.length_answer result)
      · exact hclient
  | mainSearch queue search hq hm => exact hs.mainSearch hq hm
  | mainGone k queue hq hgone => exact hs.mainGone hq hgone
  | mainAlbum k queue screen new hq hk hm => exact hs.mainAlbum hq hk hm
  | opened row artist client hrow hsel hc => exact (hs.opened artist).frame rfl rfl rfl
  | acted k action screen new hk hm =>
    refine hs.withScreen hk (ArtistAlbumViewController.length_step ?_ hm)
    cases action <;> exact fun h => by cases h
  | popped k screen hk =>
    exact ⟨hs.search, fun j screen hj => hs.album j screen (Pool.find?_finish_eq_some.mp hj).2, hs.fresh⟩

/-! ### The queue empties -/

/-- The same screens with other events handled, and nothing else changed. -/
structure Handled (s t : BrowseApp β) : Prop where
  client : t.client = s.client
  calls : t.calls = s.calls
  debounce : t.debounce = s.debounce
  search : t.search.settled = s.search.settled
  screens : ∀ k, (t.screens.find? k).map ArtistAlbumViewController.settled =
    (s.screens.find? k).map ArtistAlbumViewController.settled

theorem Handled.trans {t u : BrowseApp β} (h : Handled s t) (h' : Handled t u) : Handled s u :=
  ⟨h'.client.trans h.client, h'.calls.trans h.calls, h'.debounce.trans h.debounce, h'.search.trans h.search,
    fun k => (h'.screens k).trans (h.screens k)⟩

theorem main_search {queue : List EventOwner} {search : SearchViewController}
    (hq : s.mainQueue = .search :: queue) (hm : s.search.step .main = some search) :
    s.main F = some { s with search := search, mainQueue := queue } := by
  rw [BrowseApp.main, hq]
  simp only [hm, Option.map_some]

theorem main_gone {k : ℕ} {queue : List EventOwner} (hq : s.mainQueue = .album k :: queue)
    (hk : s.screens.find? k = none) : s.main F = some { s with mainQueue := queue } := by
  rw [BrowseApp.main, hq]
  simp only [hk]

theorem main_album {k : ℕ} {queue : List EventOwner} {old new : ArtistAlbumViewController}
    (hq : s.mainQueue = .album k :: queue) (hk : s.screens.find? k = some old)
    (hm : old.step F .main = some new) :
    s.main F = some { s with screens := s.screens.update k fun _ => new, mainQueue := queue } := by
  rw [BrowseApp.main, hq]
  simp only [hk, hm, Option.map_some]

/-- The main thread can take the first event, whoever it is for. -/
theorem Queued.main (F : Foundation) (hs : Queued s) {owner : EventOwner} {queue : List EventOwner}
    (hq : s.mainQueue = owner :: queue) : ∃ t, s.main F = some t ∧ t.mainQueue = queue ∧ Handled s t := by
  cases owner with
  | search =>
    have hcount := hs.search
    rw [hq, List.count_cons_self] at hcount
    obtain ⟨e, events, he⟩ := List.exists_cons_of_length_pos (show 0 < s.search.mainQueue.length by omega)
    have hm := SearchViewController.step_main he
    refine ⟨_, main_search hq hm, rfl, rfl, rfl, rfl, ?_, fun k => rfl⟩
    exact Inbox.settled_take (SearchViewController.take_inbox.mpr ⟨_, hm, rfl⟩)
  | album k =>
    cases hk : s.screens.find? k with
    | none => exact ⟨_, main_gone hq hk, rfl, rfl, rfl, rfl, rfl, fun k => rfl⟩
    | some screen =>
      have hcount := hs.album k screen hk
      rw [hq, List.count_cons_self] at hcount
      obtain ⟨e, events, he⟩ := List.exists_cons_of_length_pos (show 0 < screen.mainQueue.length by omega)
      have hm := ArtistAlbumViewController.step_main (F := F) he
      refine ⟨_, main_album hq hk hm, rfl, rfl, rfl, rfl, rfl, fun j => ?_⟩
      rw [Pool.find?_update]
      split_ifs with hjk
      · subst hjk
        rw [hk, Option.map_some, Option.map_some, Option.map_some]
        exact congrArg some (Inbox.settled_take
          ((ArtistAlbumViewController.take_inbox F).mpr ⟨_, hm, rfl⟩))
      · rfl

/-- The main thread takes what is queued. -/
theorem Queued.drains (F : Foundation) (formatted : Int → String) (hs : Queued s) : ∃ t,
    Runs.exec (BrowseApp.step F formatted) s (List.replicate s.mainQueue.length .main) = some t ∧
    Queued t ∧ t.mainQueue = [] ∧ Handled s t := by
  generalize hq : s.mainQueue = queue
  induction queue generalizing s with
  | nil => exact ⟨s, rfl, hs, hq, rfl, rfl, rfl, rfl, fun _ => rfl⟩
  | cons owner queue ih =>
    obtain ⟨u, hu, hqueue, hsame⟩ := hs.main F hq
    have hstep : s.step F formatted .main = some u := hu
    obtain ⟨t, ht, hend, hempty, hsame'⟩ := ih (hs.step hstep) hqueue
    refine ⟨t, ?_, hend, hempty, hsame.trans hsame'⟩
    rw [List.length_cons, List.replicate_succ, Runs.exec_cons_some hstep, ht]

theorem Queued.search_settled (hs : Queued s) (hq : s.mainQueue = []) : s.search.settled = s.search := by
  have hcount := hs.search
  rw [hq, List.count_nil] at hcount
  exact SearchViewController.settled_of_empty (List.eq_nil_of_length_eq_zero hcount.symm)

theorem Queued.screen_settled (hs : Queued s) (hq : s.mainQueue = []) {k : ℕ}
    {screen : ArtistAlbumViewController} (hk : s.screens.find? k = some screen) :
    screen.settled = screen := by
  have hcount := hs.album k screen hk
  rw [hq, List.count_nil] at hcount
  exact ArtistAlbumViewController.settled_of_empty (List.eq_nil_of_length_eq_zero hcount.symm)

/-- **The app settles.**  From every state of a run, the main thread can take all that is queued, event by
event; after that every screen is the one that it settles to alone, and nothing else has changed. -/
theorem main_drains (F : Foundation) (formatted : Int → String) (d : UserDefaults) (t uptime : Date)
    (ls : List (BrowseLabel β)) (s : BrowseApp β)
    (h : Runs.exec (step F formatted) (launch d t uptime) ls = some s) :
    ∃ s', Runs.exec (step F formatted) s (List.replicate s.mainQueue.length .main) = some s' ∧
      s'.mainQueue = [] ∧ s'.search = s.search.settled ∧
      (∀ k, s'.screens.find? k = (s.screens.find? k).map ArtistAlbumViewController.settled) ∧
      s'.client = s.client ∧ s'.calls = s.calls ∧ s'.debounce = s.debounce := by
  have hs : Queued s := Runs.exec_inv (fun _ _ _ hs hl => Queued.step hs hl) (queued_launch d t uptime) h
  obtain ⟨s', hs', hend, hempty, hsame⟩ := hs.drains F formatted
  refine ⟨s', hs', hempty, ?_, fun k => ?_, hsame.client, hsame.calls, hsame.debounce⟩
  · rw [← hsame.search, hend.search_settled hempty]
  · rw [← hsame.screens k]
    cases hk : s'.screens.find? k with
    | none => rfl
    | some screen => rw [Option.map_some, hend.screen_settled hempty hk]

/-- A search is answered while the album screen waits for its events. -/
theorem browsed_drains : ∃ s s',
    Runs.exec (step Foundation.ascii fun n => toString n) (launch signedIn 0 0)
      (browsed.take 10 ++ [.textDidChange "c", .uptime 1, .fire 1, .propagate 1,
        .response 2 (.decoded (.artists (SearchViewController.found "C")))]) = some s ∧
    s.mainQueue = [.album 0, .album 0, .search, .search, .search] ∧
    Runs.exec (step Foundation.ascii fun n => toString n) s (List.replicate 5 .main) = some s' ∧
    s'.mainQueue = [] ∧ s'.search = s.search.settled := by
  obtain ⟨s, hs, hqueue⟩ : ∃ s,
      Runs.exec (step Foundation.ascii fun n => toString n) (launch signedIn 0 0)
        (browsed.take 10 ++ [.textDidChange "c", .uptime 1, .fire 1, .propagate 1,
          .response 2 (.decoded (.artists (SearchViewController.found "C")))]) = some s ∧
      s.mainQueue = [.album 0, .album 0, .search, .search, .search] := Runs.exec_of_any (by decide +kernel)
  obtain ⟨s', hs', hempty, hsearch, -⟩ := main_drains _ _ _ _ _ _ s hs
  rw [hqueue] at hs'
  exact ⟨s, s', hs, hqueue, hs', hempty, hsearch⟩

end BrowseApp

end Spotify
