import Spotify.Browse.App

/-!
# Spotify.Browse.Linked — every answer finds the screen that asked

`Linked` ties the calls of the client to the screens: each call has its own owner, an unanswered search is in
flight in the search view model under its text, and an unanswered album call has a screen that awaits it, if
the screen is still there.  So an answer is always taken by the one that made the call.
-/

namespace Spotify.ArtistAlbumViewController

variable {F : Foundation} {s s' : ArtistAlbumViewController}

/-- Only the answer changes the view model. -/
theorem viewModel_step {l : AlbumLabel} (hl : ∀ result, l ≠ .response result) (h : s.step F l = some s') :
    s'.viewModel = s.viewModel ∧ s'.awaiting = s.awaiting := by
  cases step_effect h with
  | loaded idle =>
    obtain ⟨hvm, hawait, -⟩ := observe_frame (s := { s with isViewLoaded := true }) idle
      (.isLoading s.viewModel.isLoading)
    exact ⟨hvm, hawait⟩
  | laidOut => exact ⟨rfl, rfl⟩
  | answered result ha => exact absurd rfl (hl result)
  | delivered e queue hq => exact ⟨viewModel_deliver e, awaiting_deliver e⟩
  | headed idle =>
    obtain ⟨hvm, hawait, -⟩ := observe_frame (s := s) idle (.headerModel s.viewModel.headerModel)
    exact ⟨hvm, hawait⟩
  | tapped row idle es =>
    obtain ⟨hvm, hawait, -⟩ := send_frame (s := s) idle es
    exact ⟨hvm, hawait⟩

theorem endpoint_answer (result : Except APIError Album) :
    (s.answer result).viewModel.endpoint = s.viewModel.endpoint := by
  rw [(answer_frame result).1]
  cases result <;> rfl

end Spotify.ArtistAlbumViewController

namespace Spotify.BrowseApp

open APIClient (Ledger Matches)

variable {β : Type} {F : Foundation} {formatted : Int → String} {s s' : BrowseApp β}
  {ls : List (BrowseLabel β)}

/-! ### Lists that grow -/

theorem getElem?_concat {α : Type} {xs : List α} {x y : α} {i : ℕ} (h : (xs ++ [x])[i]? = some y) :
    xs[i]? = some y ∨ (i = xs.length ∧ y = x) := by
  rcases Nat.lt_trichotomy i xs.length with hlt | heq | hgt
  · rw [List.getElem?_append_left hlt] at h
    exact .inl h
  · subst heq
    rw [List.getElem?_concat_length] at h
    exact .inr ⟨rfl, (Option.some.inj h).symm⟩
  · have hnone : (xs ++ [x])[i]? = none := by
      refine List.getElem?_eq_none ?_
      rw [List.length_append, List.length_singleton]
      omega
    rw [hnone] at h
    cases h

theorem getElem?_of_prefix {α : Type} {xs ys : List α} (h : xs <+: ys) {i : ℕ} {x : α} (hx : xs[i]? = some x) :
    ys[i]? = some x := by
  obtain ⟨hi, rfl⟩ := List.getElem?_eq_some_iff.mp hx
  exact List.prefix_iff_getElem?.mp h i hi

/-- Different places of a list without repetitions hold different elements. -/
theorem eq_of_getElem?_nodup {α γ : Type} {f : α → γ} {xs : List α} (hnd : (xs.map f).Nodup) {i j : ℕ}
    {x y : α} (hx : xs[i]? = some x) (hy : xs[j]? = some y) (hxy : f x = f y) : i = j := by
  obtain ⟨hi, rfl⟩ := List.getElem?_eq_some_iff.mp hx
  obtain ⟨hj, rfl⟩ := List.getElem?_eq_some_iff.mp hy
  have hi' : i < (xs.map f).length := by rwa [List.length_map]
  have hj' : j < (xs.map f).length := by rwa [List.length_map]
  have heq : (xs.map f)[i] = (xs.map f)[j] := by rw [List.getElem_map, List.getElem_map, hxy]
  exact (List.Nodup.getElem_inj_iff hnd).mp heq

/-! ### The invariant -/

/-- The calls of the client and the screens that made them. -/
structure Linked (s : BrowseApp β) : Prop where
  ledger : Ledger s.client
  made : Matches s.client (s.calls.map Prod.fst)
  owners : (s.calls.map Prod.snd).Nodup
  search : ∀ c e i, s.calls[c]? = some (e, .search i) → i < s.search.viewModel.searches.next ∧
    ∃ text, e = .getartistProfile text ∧
      (c ∉ s.client.answered → s.search.viewModel.searches.find? i = some text)
  album : ∀ c e k, s.calls[c]? = some (e, .album k) → k < s.screens.next ∧
    ∀ screen, s.screens.find? k = some screen → e = screen.viewModel.endpoint ∧
      (c ∉ s.client.answered → screen.awaiting = true)
  value : s.search.viewModel.searchText = s.debounce.value

theorem linked_launch (d : UserDefaults) (t uptime : Date) : Linked (launch d t uptime : BrowseApp β) where
  ledger := APIClient.ledger_launch d t
  made := APIClient.matches_launch d t
  owners := List.nodup_nil
  search := fun c e i h => by cases h
  album := fun c e k h => by cases h
  value := rfl

/-- A call has the endpoint that its data task was made for. -/
theorem Linked.endpoint_eq (hs : Linked s) {task : ℕ} {t : DataTask} {endpoint : Endpoint} {owner : Owner}
    (ht : s.client.tasks.find? task = some t) (hcall : s.calls[t.call.id]? = some (endpoint, owner)) :
    t.call.endpoint = endpoint := by
  have hlive : t.call ∈ s.client.live :=
    List.mem_append_right _ (APIClient.mem_collect_call.mpr ⟨task, t, ht, rfl⟩)
  have hmade := hs.made.live t.call hlive
  rw [List.getElem?_map, hcall] at hmade
  exact (Option.some.inj hmade).symm

/-! ### Steps -/

/-- A step that leaves the calls, and of the search view model at most the text, alone. -/
theorem Linked.frame (hs : Linked s) (hclient : s'.client = s.client) (hcalls : s'.calls = s.calls)
    (hsearches : s'.search.viewModel.searches = s.search.viewModel.searches)
    (hscreens : s'.screens = s.screens)
    (hvalue : s'.search.viewModel.searchText = s'.debounce.value) : Linked s' where
  ledger := hclient ▸ hs.ledger
  made := by rw [hclient, hcalls]; exact hs.made
  owners := by rw [hcalls]; exact hs.owners
  search := by rw [hclient, hcalls, hsearches]; exact hs.search
  album := by rw [hclient, hcalls, hscreens]; exact hs.album
  value := hvalue

/-- A search is issued. -/
theorem Linked.searched (hs : Linked s) {text : String} {debounce : DebounceSink String}
    {client : APIClient β} (hv' : debounce.value = none)
    (hc : s.client.step F (.call (.getartistProfile text)) = some client) :
    Linked { ({ s with debounce := debounce } : BrowseApp β).withSearch
        (s.search.update s.idle (s.search.viewModel.searchTextEmitted text)) with
      client := client
      calls := s.calls ++ [(.getartistProfile text, .search s.search.viewModel.searches.next)] } := by
  have hvm : (s.search.viewModel.searchTextEmitted text).1.searches = s.search.viewModel.searches.start text ∧
      (s.search.viewModel.searchTextEmitted text).1.searchText = none := by
    unfold SearchViewModel.searchTextEmitted
    split <;> exact ⟨rfl, rfl⟩
  have hanswered : client.answered = s.client.answered :=
    congrArg (List.map Prod.fst) (APIClient.answers_step (fun _ _ h => by cases h) hc)
  have hfresh : Owner.search s.search.viewModel.searches.next ∉ s.calls.map Prod.snd := by
    intro hin
    obtain ⟨⟨e, o⟩, hmem, rfl⟩ := List.mem_map.mp hin
    obtain ⟨c, hc⟩ := List.mem_iff_getElem?.mp hmem
    exact Nat.lt_irrefl _ (hs.search c e _ hc).1
  constructor
  · exact hs.ledger.step hc
  · rw [List.map_append]
    exact hs.made.step hc
  · rw [List.map_append]
    refine List.nodup_append.mpr ⟨hs.owners, List.nodup_singleton _, fun a ha b hb hab => ?_⟩
    rw [hab, List.mem_singleton.mp hb] at ha
    exact hfresh ha
  · intro c e i hcall
    simp only [withSearch, SearchViewController.viewModel_update, hvm.1, hanswered, Pool.next_start]
    rcases getElem?_concat hcall with hold | ⟨-, hnew⟩
    · obtain ⟨hlt, text', he, hflight⟩ := hs.search c e i hold
      exact ⟨by omega, text', he, fun hno => Pool.find?_start_of_some (hflight hno)⟩
    · cases hnew
      exact ⟨Nat.lt_succ_self _, text, rfl, fun _ => Pool.find?_start_next text⟩
  · intro c e k hcall
    simp only [withSearch, hanswered]
    rcases getElem?_concat hcall with hold | ⟨-, hnew⟩
    · exact hs.album c e k hold
    · cases hnew
  · simp only [withSearch, SearchViewController.viewModel_update, hvm.2, hv']

/-- The manager does something. -/
theorem Linked.auth (hs : Linked s) {l : AuthLabel APICall β} {client : APIClient β}
    (hc : s.client.step F (.auth l) = some client) : Linked { s with client := client } := by
  have hanswered : client.answered = s.client.answered :=
    congrArg (List.map Prod.fst) (APIClient.answers_step (fun _ _ h => by cases h) hc)
  have hmade := hs.made.step hc
  have hnone : APIClient.called (.auth l) = none := rfl
  rw [hnone, Option.toList_none, List.append_nil] at hmade
  refine ⟨hs.ledger.step hc, hmade, hs.owners, ?_, ?_, hs.value⟩
  · intro c e i hcall
    simp only [hanswered]
    exact hs.search c e i hcall
  · intro c e k hcall
    simp only [hanswered]
    exact hs.album c e k hcall

/-- A row is tapped and its albums are asked for. -/
theorem Linked.opened (hs : Linked s) {artist : Artist} {client : APIClient β}
    (hc : s.client.step F (.call (.getArtistAlbum artist.id)) = some client) :
    Linked { s with
      screens := s.screens.start (ArtistAlbumViewController.launch formatted artist)
      client := client
      calls := s.calls ++ [(.getArtistAlbum artist.id, .album s.screens.next)] } := by
  have hanswered : client.answered = s.client.answered :=
    congrArg (List.map Prod.fst) (APIClient.answers_step (fun _ _ h => by cases h) hc)
  have hfresh : Owner.album s.screens.next ∉ s.calls.map Prod.snd := by
    intro hin
    obtain ⟨⟨e, o⟩, hmem, rfl⟩ := List.mem_map.mp hin
    obtain ⟨c, hc⟩ := List.mem_iff_getElem?.mp hmem
    exact Nat.lt_irrefl _ (hs.album c e _ hc).1
  constructor
  · exact hs.ledger.step hc
  · rw [List.map_append]
    exact hs.made.step hc
  · rw [List.map_append]
    refine List.nodup_append.mpr ⟨hs.owners, List.nodup_singleton _, fun a ha b hb hab => ?_⟩
    rw [hab, List.mem_singleton.mp hb] at ha
    exact hfresh ha
  · intro c e i hcall
    simp only [hanswered]
    rcases getElem?_concat hcall with hold | ⟨-, hnew⟩
    · exact hs.search c e i hold
    · cases hnew
  · intro c e k hcall
    simp only [hanswered, Pool.next_start]
    rcases getElem?_concat hcall with hold | ⟨-, hnew⟩
    · obtain ⟨hlt, hscreen⟩ := hs.album c e k hold
      refine ⟨by omega, fun screen hk => hscreen screen ?_⟩
      rw [Pool.find?_start_of_ne (Nat.ne_of_lt hlt)] at hk
      exact hk
    · cases hnew
      refine ⟨Nat.lt_succ_self _, fun screen hk => ?_⟩
      rw [Pool.find?_start_next] at hk
      cases hk
      exact ⟨rfl, fun _ => rfl⟩
  · exact hs.value

/-- An album screen does something of its own. -/
theorem Linked.screen (hs : Linked s) {k : ℕ} {old new : ArtistAlbumViewController}
    (hk : s.screens.find? k = some old) (hvm : new.viewModel = old.viewModel)
    (hawait : new.awaiting = old.awaiting) (queue : List EventOwner) :
    Linked { s with screens := s.screens.update k fun _ => new, mainQueue := queue } := by
  refine ⟨hs.ledger, hs.made, hs.owners, hs.search, fun c e j hcall => ?_, hs.value⟩
  obtain ⟨hlt, hscreen⟩ := hs.album c e j hcall
  refine ⟨hlt, fun screen hj => ?_⟩
  rw [Pool.find?_update] at hj
  split_ifs at hj with hjk
  · rw [hjk, hk] at hj
    cases hj
    obtain ⟨he, hflight⟩ := hscreen old (hjk ▸ hk)
    exact ⟨by rw [he, AlbumViewModel.endpoint, AlbumViewModel.endpoint, hvm],
      fun hno => hawait.trans (hflight hno)⟩
  · exact hscreen screen hj

/-- The client has an answer, which its owner takes. -/
theorem Linked.answered (hs : Linked s) {task : ℕ} {t : DataTask} {outcome : Outcome Payload}
    {client : APIClient β} {endpoint : Endpoint} {owner : Owner}
    (ht : s.client.tasks.find? task = some t) (hc : s.client.step F (.response task outcome) = some client)
    (hcall : s.calls[t.call.id]? = some (endpoint, owner)) :
    Linked (({ s with client := client } : BrowseApp β).complete owner (t.call.endpoint.handler outcome)) := by
  obtain ⟨t', ht', haccepts, rfl⟩ := APIClient.step_response hc
  obtain rfl : t = t' := Option.some.inj (ht.symm.trans ht')
  have hno : t.call.id ∉ s.client.answered := hs.ledger.not_answered ht
  have hendpoint : t.call.endpoint = endpoint := hs.endpoint_eq ht hcall
  have hledger := hs.ledger.step hc
  have hmade := hs.made.step hc
  have hnone : (APIClient.called (.response task outcome : APILabel β)) = none := rfl
  rw [hnone, Option.toList_none, List.append_nil] at hmade
  -- who is still unanswered was so before, and is not the call at hand
  have hstill : ∀ c, c ∉ (s.client.answers ++ [(t.call.id, t.call.endpoint.handler outcome)]).map Prod.fst →
      c ∉ s.client.answered ∧ c ≠ t.call.id := by
    intro c hc
    rw [List.map_append, List.mem_append, not_or] at hc
    exact ⟨hc.1, fun h => hc.2 (List.mem_singleton.mpr h)⟩
  cases owner with
  | search i =>
    obtain ⟨hlt, text, he, hflight⟩ := hs.search _ _ _ hcall
    have hresult := artistsResult_isSome (he ▸ hendpoint ▸ haccepts)
    rw [← he, ← hendpoint] at hresult
    obtain ⟨result, hresult⟩ := hresult
    unfold complete
    rw [hresult]
    refine ⟨hledger, hmade, hs.owners, ?_, ?_, ?_⟩
    · intro c e j hcall'
      obtain ⟨hlt', text', he', hflight'⟩ := hs.search c e j hcall'
      simp only [withSearch, SearchViewController.viewModel_update]
      refine ⟨by cases result <;> exact hlt', text', he', fun hno' => ?_⟩
      obtain ⟨hno', hne⟩ := hstill c hno'
      have hij : j ≠ i := fun hij => hne (eq_of_getElem?_nodup hs.owners hcall' hcall (by rw [hij]))
      have hfind : (s.search.viewModel.searches.finish i).find? j = some text' :=
        Pool.find?_finish_eq_some.mpr ⟨hij, hflight' hno'⟩
      cases result <;> exact hfind
    · intro c e k hcall'
      obtain ⟨hlt', hscreen⟩ := hs.album c e k hcall'
      exact ⟨hlt', fun screen hk => ⟨(hscreen screen hk).1,
        fun hno' => (hscreen screen hk).2 (hstill c hno').1⟩⟩
    · simp only [withSearch, SearchViewController.viewModel_update]
      cases result <;> exact hs.value
  | album k =>
    have hsame : ∀ c e i, s.calls[c]? = some (e, .search i) → i < s.search.viewModel.searches.next ∧
        ∃ text, e = .getartistProfile text ∧
          (c ∉ (s.client.answers ++ [(t.call.id, t.call.endpoint.handler outcome)]).map Prod.fst →
            s.search.viewModel.searches.find? i = some text) := by
      intro c e i hcall'
      obtain ⟨hlt', text', he', hflight'⟩ := hs.search c e i hcall'
      exact ⟨hlt', text', he', fun hno' => hflight' (hstill c hno').1⟩
    have hkeep : ∀ c e j, s.calls[c]? = some (e, .album j) → j < s.screens.next ∧
        ∀ screen, s.screens.find? j = some screen → e = screen.viewModel.endpoint ∧
          (c ∉ (s.client.answers ++ [(t.call.id, t.call.endpoint.handler outcome)]).map Prod.fst →
            j ≠ k ∧ screen.awaiting = true) := by
      intro c e j hcall'
      obtain ⟨hlt', hscreen⟩ := hs.album c e j hcall'
      refine ⟨hlt', fun screen hj => ⟨(hscreen screen hj).1, fun hno' => ?_⟩⟩
      obtain ⟨hno', hne⟩ := hstill c hno'
      exact ⟨fun hjk => hne (eq_of_getElem?_nodup hs.owners hcall' hcall (by rw [hjk])),
        (hscreen screen hj).2 hno'⟩
    unfold complete
    simp only
    split
    · rename_i screen result hk hresult
      refine ⟨hledger, hmade, hs.owners, hsame, ?_, hs.value⟩
      intro c e j hcall'
      obtain ⟨hlt', hscreen⟩ := hkeep c e j hcall'
      refine ⟨hlt', fun new hj => ?_⟩
      simp only [withScreen, Pool.find?_update] at hj
      split_ifs at hj with hjk
      · rw [hjk, hk] at hj
        cases hj
        refine ⟨?_, fun hno' => absurd hjk ((hscreen screen (hjk ▸ hk)).2 hno').1⟩
        rw [(hscreen screen (hjk ▸ hk)).1, ArtistAlbumViewController.endpoint_answer]
      · exact ⟨(hscreen new hj).1, fun hno' => ((hscreen new hj).2 hno').2⟩
    · refine ⟨hledger, hmade, hs.owners, hsame, ?_, hs.value⟩
      intro c e j hcall'
      obtain ⟨hlt', hscreen⟩ := hkeep c e j hcall'
      exact ⟨hlt', fun new hj => ⟨(hscreen new hj).1, fun hno' => ((hscreen new hj).2 hno').2⟩⟩

theorem action_ne_response {action : AlbumAction} (idle : Bool) (result : Except APIError Album) :
    action.label idle ≠ .response result := by
  cases action <;> exact fun h => by cases h

theorem viewModel_textDidChange (text : String) :
    (s.search.textDidChange text).viewModel.searches = s.search.viewModel.searches ∧
    (s.search.textDidChange text).viewModel.searchText =
      some (encoded text) := by
  unfold SearchViewController.textDidChange encoded
  split <;> exact ⟨rfl, rfl⟩

theorem viewModel_main {search search' : SearchViewController} (h : search.step .main = some search') :
    search'.viewModel = search.viewModel := by
  have he := SearchViewController.step_effect h
  generalize search'.viewModel = vm at he ⊢
  cases he
  rfl

theorem Linked.step (hs : Linked s) {l : BrowseLabel β}
    (hstep : s.step F formatted l = some s') : Linked s' := by
  cases step_effect hstep with
  | typed text =>
    obtain ⟨hsearches, htext⟩ := viewModel_textDidChange (s := s) text
    refine hs.frame rfl rfl hsearches rfl ?_
    rw [htext, DebounceSink.value_synchronizedOn]
  | quiet l dl debounce out hl hin hd hem hv => exact hs.frame rfl rfl rfl rfl (hs.value.trans hv.symm)
  | searched k text debounce out client hd hem hv hv' hc => exact hs.searched hv' hc
  | auth l client hc => exact hs.auth hc
  | answered task t outcome client endpoint owner ht hc hcall => exact hs.answered ht hc hcall
  | mainSearch queue search hq hm =>
    have hvm : search.viewModel = s.search.viewModel := viewModel_main hm
    exact hs.frame rfl rfl (congrArg SearchViewModel.searches hvm) rfl
      ((congrArg SearchViewModel.searchText hvm).trans hs.value)
  | mainGone k queue hq hgone => exact hs.frame rfl rfl rfl rfl hs.value
  | mainAlbum k queue screen new hq hk hm =>
    obtain ⟨hvm, hawait⟩ := ArtistAlbumViewController.viewModel_step (fun _ h => by cases h) hm
    exact hs.screen hk hvm hawait queue
  | ignored row => exact hs
  | opened row artist client hrow hsel hc => exact hs.opened hc
  | acted k action screen new hk hm =>
    obtain ⟨hvm, hawait⟩ := ArtistAlbumViewController.viewModel_step (fun _ => action_ne_response _ _) hm
    exact hs.screen hk hvm hawait _
  | popped k screen hk =>
    refine ⟨hs.ledger, hs.made, hs.owners, hs.search, fun c e j hcall => ?_, hs.value⟩
    obtain ⟨hlt, hscreen⟩ := hs.album c e j hcall
    exact ⟨hlt, fun screen hj => hscreen screen (Pool.find?_finish_eq_some.mp hj).2⟩

end Spotify.BrowseApp
