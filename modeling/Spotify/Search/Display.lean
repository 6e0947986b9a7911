import Spotify.Search.Tap

/-!
# Spotify.Search.Display — rows and spinner of the search screen

Two things on the screen are kept apart from what they stand for.  The collection view keeps the row
count of its last reload, while a response replaces `artist` at once and its `reload` waits in the main
queue (`rows_present_iff`).  The one flag `isLoading` stands for all searches in flight, and any answer
clears it (`spinner_true_iff`).
-/

namespace Spotify.SearchViewController

variable {s s' : SearchViewController}

/-! ### Rows -/

/-- `collectionView(_:cellForItemAt:)` finds an artist for every row that the view may ask for, those
below the count it read last. -/
def RowsPresent (s : SearchViewController) : Prop :=
  ∀ row < s.rows, ∃ artist, s.viewModel.artistAt row = some artist

/-- The length of the list that shows `model`. -/
def rowsOf (model : ArtistsSearchResponse) : ℕ :=
  match model.artists with
  | none => 0
  | some artist => artist.items.length

/-- A successful answer brings at least as many artists as the view counts rows. -/
def CoversRows (s : SearchViewController) (l : SearchLabel) : Prop :=
  ∀ search model, l = .response search (.ok model) → s.rows ≤ rowsOf model

instance : DecidablePred RowsPresent := fun s =>
  decidable_of_iff (∀ row < s.rows, (s.viewModel.artistAt row).isSome = true)
    (forall₂_congr fun _ _ => Option.isSome_iff_exists)

theorem rowsPresent_iff : RowsPresent s ↔ s.rows ≤ s.viewModel.numberOfItems := by
  constructor
  · intro h
    by_contra hlt
    obtain ⟨artist, hart⟩ := h s.viewModel.numberOfItems (Nat.lt_of_not_le hlt)
    have hlast : s.viewModel.numberOfItems < s.viewModel.numberOfItems :=
      artistAt_isSome.mp (Option.isSome_iff_exists.mpr ⟨artist, hart⟩)
    exact absurd hlast (Nat.lt_irrefl _)
  · intro h row hrow
    have hlt : row < s.viewModel.numberOfItems := Nat.lt_of_lt_of_le hrow h
    exact Option.isSome_iff_exists.mp (artistAt_isSome.mpr hlt)

/-- Observing an event leaves the row count alone or reads it again. -/
theorem rows_observe (onMain : Bool) (e : RelayEvent) : (s.observe onMain e).rows = s.rows ∨
    (s.observe onMain e).rows = (s.observe onMain e).viewModel.numberOfItems := by
  unfold observe
  split
  · cases e with
    | isLoading value => exact .inl rfl
    | onError error => exact .inl rfl
    | reload => exact .inr rfl
  · exact .inl rfl

theorem rows_update (onMain : Bool) (vm : SearchViewModel) (es : List RelayEvent) :
    (s.update onMain (vm, es)).rows = s.rows ∨
      (s.update onMain (vm, es)).rows = vm.numberOfItems := by
  suffices h : ∀ u : SearchViewController, u.viewModel = vm →
      (es.foldl (observe onMain) u).rows = u.rows ∨
        (es.foldl (observe onMain) u).rows = vm.numberOfItems from h { s with viewModel := vm } rfl
  induction es with
  | nil => exact fun u _ => .inl rfl
  | cons e es ih =>
    intro u hu
    have hvm : (u.observe onMain e).viewModel = vm := (viewModel_observe onMain e).trans hu
    have hstep := rows_observe (s := u) onMain e
    rw [hvm] at hstep
    rcases ih _ hvm with h | h
    · rw [List.foldl_cons, h]
      exact hstep
    · exact .inr h

/-- Off the main thread every event is queued. -/
theorem rows_update_off (vm : SearchViewModel) (es : List RelayEvent) :
    (s.update false (vm, es)).rows = s.rows := by
  suffices h : ∀ u : SearchViewController, (es.foldl (observe false) u).rows = u.rows from
    h { s with viewModel := vm }
  induction es with
  | nil => exact fun u => rfl
  | cons e es ih =>
    intro u
    rw [List.foldl_cons, ih]
    simp [observe]

theorem rows_response {search : ℕ} {result : Except APIError ArtistsSearchResponse}
    (h : s.step (.response search result) = some s') : s'.rows = s.rows := by
  obtain ⟨text, -, rfl⟩ := Option.map_eq_some_iff.mp h
  exact rows_update_off _ _

/-- **What a step does to the rows.**  The count stays or is read again, and a response leaves it. -/
theorem step_rows {l : SearchLabel} (h : s.step l = some s') :
    s'.rows = s.rows ∨ s'.rows = s'.viewModel.numberOfItems := by
  cases l with
  | textDidChange text =>
    cases h
    unfold textDidChange
    by_cases ht : text = ""
    · subst ht
      exact .inr rfl
    · rw [if_neg ht]
      exact .inl rfl
  | debounce =>
    obtain ⟨text, -, rfl⟩ := Option.map_eq_some_iff.mp h
    rw [viewModel_update]
    exact rows_update true _ _
  | response search result => exact .inl (rows_response h)
  | main =>
    simp only [step] at h
    split at h
    · cases h
    · rename_i e queue _
      cases h
      cases e with
      | isLoading value => exact .inl rfl
      | onError error => exact .inl rfl
      | reload => exact .inr rfl

/-- The list itself changes only by a successful answer. -/
theorem step_numberOfItems {l : SearchLabel} (h : s.step l = some s') :
    s'.viewModel.numberOfItems = s.viewModel.numberOfItems ∨
      ∃ search model, l = .response search (.ok model) ∧ s'.viewModel.numberOfItems = rowsOf model := by
  have he := step_effect h
  generalize s'.viewModel = vm at he ⊢
  cases he with
  | cleared | typed | issued | issuedEmpty | failed | delivered => exact .inl rfl
  | succeeded search model text hs => exact .inr ⟨search, model, rfl, rfl⟩

theorem rowsPresent_step {l : SearchLabel} (hs : RowsPresent s) (hg : CoversRows s l)
    (h : s.step l = some s') : RowsPresent s' := by
  rw [rowsPresent_iff] at hs ⊢
  rcases step_numberOfItems h with hitems | ⟨search, model, rfl, hitems⟩
  · rcases step_rows h with hrows | hrows
    · rw [hrows, hitems]
      exact hs
    · exact Nat.le_of_eq hrows
  · rw [rows_response h, hitems]
    exact hg search model rfl

theorem coversRows_of_step {l : SearchLabel} (h : s.step l = some s') (h' : RowsPresent s') :
    CoversRows s l := by
  rintro search model rfl
  rw [rowsPresent_iff, rows_response h] at h'
  rcases step_numberOfItems h with hitems | ⟨_, _, hl, hitems⟩
  · have he := step_effect h
    generalize s'.viewModel = vm at he h'
    cases he with
    | succeeded _ _ text hs => exact h'
  · cases hl
    rw [hitems] at h'
    exact h'

/-- **When every row asked for is there.**  In every state of a run from launch each row below the count
that the view read last has its artist if and only if every successful answer brings at least as many
artists as the view counts rows when it arrives. -/
theorem rows_present_iff (ls : List SearchLabel) :
    Runs.Always step RowsPresent launch ls ↔
      Runs.EachStep step (fun s l _ => CoversRows s l) launch ls := by
  have h0 : RowsPresent launch := fun row hrow => absurd hrow (Nat.not_lt_zero row)
  refine Runs.always_iff_eachStep (I := RowsPresent) (fun _ h => h) ?_ ?_ h0
  · exact fun s l s' hs hg h => rowsPresent_step hs hg h
  · exact fun s l s' _ h h' => coversRows_of_step h h'

/-- One artist is on display when the response to the next text brings none: until its reload is
delivered, the view may ask for row 0, and `artist(at: 0)` traps. -/
theorem row_gone_before_reload :
    ¬ Runs.Always step RowsPresent launch
      [.textDidChange "a", .debounce, .response 0 (.ok (found "A")), .main, .main,
        .textDidChange "ab", .debounce, .response 1 (.ok ⟨none⟩)] ∧
    (Runs.exec step launch
      [.textDidChange "a", .debounce, .response 0 (.ok (found "A")), .main, .main,
        .textDidChange "ab", .debounce, .response 1 (.ok ⟨none⟩)]).map
      (fun s => (s.rows, s.viewModel.artistAt 0)) = some (1, none) :=
  ⟨Runs.not_always_of_exec (by decide +kernel), by decide +kernel⟩

/-! ### The spinner -/

/-- `isLoading` is up exactly while a search has not been answered. -/
def SpinnerTrue (s : SearchViewController) : Prop :=
  s.viewModel.isLoading = true ↔ ∃ search text, s.viewModel.searches.find? search = some text

/-- An answered search is the only one in flight. -/
def AnsweredAlone (s : SearchViewController) (l : SearchLabel) : Prop :=
  ∀ search result, l = .response search result →
    ∀ other text, s.viewModel.searches.find? other = some text → other = search

theorem exists_find?_start (p : Pool String) (text : String) :
    ∃ search text', (p.start text).find? search = some text' :=
  ⟨p.next, text, Pool.find?_start_next text⟩

/-- Nothing is in flight after the answer of the only search. -/
theorem exists_find?_finish {p : Pool String} {search : ℕ} :
    (∃ other text, (p.finish search).find? other = some text) ↔
      ¬ ∀ other text, p.find? other = some text → other = search := by
  push Not
  refine exists_congr fun other => exists_congr fun text => ?_
  rw [Pool.find?_finish_eq_some]
  exact and_comm

theorem spinnerTrue_answer {vm : SearchViewModel} {search : ℕ} (h : vm.isLoading = false)
    (p : Pool String) (hp : vm.searches = p.finish search) :
    (vm.isLoading = true ↔ ∃ other text, vm.searches.find? other = some text) ↔
      ∀ other text, p.find? other = some text → other = search := by
  rw [h, hp, exists_find?_finish]
  simp

theorem spinnerTrue_step {l : SearchLabel} (hs : SpinnerTrue s) (hg : AnsweredAlone s l)
    (h : s.step l = some s') : SpinnerTrue s' := by
  have he := step_effect h
  unfold SpinnerTrue at hs ⊢
  generalize s'.viewModel = vm at he ⊢
  cases he with
  | cleared | typed | delivered => exact hs
  | issued text | issuedEmpty => exact iff_of_true rfl (exists_find?_start _ _)
  | succeeded search model text =>
    exact (spinnerTrue_answer rfl s.viewModel.searches rfl).mpr (hg search _ rfl)
  | failed search error text =>
    exact (spinnerTrue_answer rfl s.viewModel.searches rfl).mpr (hg search _ rfl)

theorem answeredAlone_of_step {l : SearchLabel} (h : s.step l = some s') (h' : SpinnerTrue s') :
    AnsweredAlone s l := by
  rintro search result rfl
  have he := step_effect h
  unfold SpinnerTrue at h'
  generalize s'.viewModel = vm at he h'
  cases he with
  | succeeded _ model text => exact (spinnerTrue_answer rfl s.viewModel.searches rfl).mp h'
  | failed _ error text => exact (spinnerTrue_answer rfl s.viewModel.searches rfl).mp h'

/-- **When the spinner tells the truth.**  In every state of a run from launch `isLoading` is up exactly
while a search is unanswered, if and only if every answer comes while no other search is in flight. -/
theorem spinner_true_iff (ls : List SearchLabel) :
    Runs.Always step SpinnerTrue launch ls ↔
      Runs.EachStep step (fun s l _ => AnsweredAlone s l) launch ls := by
  have h0 : SpinnerTrue launch := by
    refine iff_of_false (by simp [launch, SearchViewModel.launch]) ?_
    rintro ⟨search, text, h⟩
    cases h
  refine Runs.always_iff_eachStep (I := SpinnerTrue) (fun _ h => h) ?_ ?_ h0
  · exact fun s l s' hs hg h => spinnerTrue_step hs hg h
  · exact fun s l s' _ h h' => answeredAlone_of_step h h'

/-- Of two searches in flight one is answered: the spinner stops, and the other is still out. -/
theorem spinner_stops_early :
    ¬ Runs.Always step SpinnerTrue launch (twoSearches ++ [.response 0 (.ok (found "A"))]) := by
  intro h
  obtain ⟨s, hs, hload, hfind⟩ : ∃ s, Runs.exec step launch
      (twoSearches ++ [.response 0 (.ok (found "A"))]) = some s ∧
      s.viewModel.isLoading = false ∧ s.viewModel.searches.find? 1 = some "ab" :=
    Runs.exec_of_any (by decide +kernel)
  have hbusy := (h.last hs).mpr ⟨1, "ab", hfind⟩
  rw [hload] at hbusy
  cases hbusy

end Spotify.SearchViewController
