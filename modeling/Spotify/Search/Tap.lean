import Spotify.Search.Stale

/-!
# Spotify.Search.Tap — tapping a row of the list

The rows are rendered from `artist`, a tap reads `artistArray`.  A response writes both; clearing the bar
and an emitted empty text empty only the array.  `taps_open_iff` says that these two steps, taken while the
list shows rows, are the only way to part the copies.
-/

namespace Spotify.SearchViewController

variable {s s' : SearchViewController}

/-- The array holds the artist of every row on display. -/
def OpensDisplayed (s : SearchViewController) : Prop :=
  ∀ row < s.viewModel.numberOfItems, ∃ artistArray, s.viewModel.artistArray = some artistArray ∧
    row < artistArray.length ∧ artistArray[row]? = s.viewModel.artistAt row

/-- The array is emptied only while no row is on display. -/
def ClearsEmptyList (s : SearchViewController) (l : SearchLabel) : Prop :=
  l = .textDidChange "" ∨ (l = .debounce ∧ s.viewModel.searchText = some "") →
    s.viewModel.numberOfItems = 0

theorem artistAt_isSome {vm : SearchViewModel} {row : ℕ} :
    (vm.artistAt row).isSome = true ↔ row < vm.numberOfItems := by
  unfold SearchViewModel.artistAt SearchViewModel.numberOfItems
  cases vm.artist with
  | none => simp
  | some artist => simp

/-- `OpensDisplayed` in terms of the tap: it opens the displayed artist, and never traps. -/
theorem opensDisplayed_iff : OpensDisplayed s ↔
    ∀ row < s.viewModel.numberOfItems, ∃ artist,
      s.viewModel.artistAt row = some artist ∧ s.didSelectItemAt row = .opened artist := by
  refine forall₂_congr fun row hrow => ?_
  obtain ⟨artist, hart⟩ := Option.isSome_iff_exists.mp (artistAt_isSome.mpr hrow)
  rw [hart]
  unfold didSelectItemAt
  cases s.viewModel.artistArray with
  | none => simp
  | some artistArray =>
    cases hget : artistArray[row]? with
    | none => simp [hget]
    | some x =>
      have hlt : row < artistArray.length := (List.getElem?_eq_some_iff.mp hget).1
      simp [hlt, eq_comm]

theorem opensDisplayed_of_copies (h : s.viewModel.artistArray =
    s.viewModel.artist.map ArtistsResponse.items) : OpensDisplayed s := by
  intro row hrow
  unfold SearchViewModel.artistAt
  unfold SearchViewModel.numberOfItems at hrow
  cases hart : s.viewModel.artist with
  | none =>
    rw [hart] at hrow
    exact absurd hrow (Nat.not_lt_zero row)
  | some artist =>
    rw [hart] at h hrow
    exact ⟨artist.items, h, hrow, rfl⟩

theorem opensDisplayed_of_empty (h : s.viewModel.numberOfItems = 0) : OpensDisplayed s :=
  fun row hrow => absurd (h ▸ hrow) (Nat.not_lt_zero row)

theorem numberOfItems_eq_zero_of_cleared (h : OpensDisplayed s)
    (hcleared : s.viewModel.artistArray = some []) : s.viewModel.numberOfItems = 0 := by
  by_contra hne
  obtain ⟨artistArray, harr, hlt, -⟩ := h 0 (Nat.pos_of_ne_zero hne)
  rw [hcleared] at harr
  cases harr
  exact absurd hlt (Nat.not_lt_zero 0)

theorem opensDisplayed_step {l : SearchLabel} (hs : OpensDisplayed s) (hg : ClearsEmptyList s l)
    (h : s.step l = some s') : OpensDisplayed s' := by
  have he := step_effect h
  unfold OpensDisplayed at hs ⊢
  generalize hvm : s'.viewModel = vm at he ⊢
  cases he with
  | cleared =>
    rw [← hvm]
    exact opensDisplayed_of_empty (by rw [hvm]; exact hg (.inl rfl))
  | issuedEmpty hp =>
    rw [← hvm]
    exact opensDisplayed_of_empty (by rw [hvm]; exact hg (.inr ⟨rfl, hp⟩))
  | succeeded search model =>
    rw [← hvm]
    exact opensDisplayed_of_copies (by rw [hvm])
  | typed | issued | failed | delivered => exact hs

theorem clearsEmptyList_of_step {l : SearchLabel} (h : s.step l = some s') (h' : OpensDisplayed s') :
    ClearsEmptyList s l := by
  have he := step_effect h
  have hnum := numberOfItems_eq_zero_of_cleared h'
  generalize s'.viewModel = vm at he hnum
  rintro (rfl | ⟨rfl, hp⟩)
  · cases he with
    | cleared => exact hnum rfl
    | typed _ ht => exact absurd rfl ht
  · cases he with
    | issued text hp' ht =>
      rw [hp] at hp'
      exact absurd (Option.some.inj hp').symm ht
    | issuedEmpty => exact hnum rfl

/-- **When every tap opens the displayed artist.**  In every state of a run from launch the array holds
the artist of each row on display if and only if the array is emptied only while there is no row.  In such
a run a tap on a row opens its artist. -/
theorem taps_open_iff (ls : List SearchLabel) :
    (Runs.Always step OpensDisplayed launch ls ↔
      Runs.EachStep step (fun s l _ => ClearsEmptyList s l) launch ls) ∧
    (Runs.EachStep step (fun s l _ => ClearsEmptyList s l) launch ls →
      Runs.Always step (fun s => ∀ row < s.viewModel.numberOfItems, ∃ artist,
        s.viewModel.artistAt row = some artist ∧ s.didSelectItemAt row = .opened artist) launch ls) := by
  have h0 : OpensDisplayed launch := opensDisplayed_of_empty rfl
  have hiff : Runs.Always step OpensDisplayed launch ls ↔
      Runs.EachStep step (fun s l _ => ClearsEmptyList s l) launch ls := by
    refine Runs.always_iff_eachStep (I := OpensDisplayed) (fun _ h => h) ?_ ?_ h0
    · exact fun s l s' hs hg h => opensDisplayed_step hs hg h
    · exact fun s l s' _ h h' => clearsEmptyList_of_step h h'
  exact ⟨hiff, fun hg => (hiff.mpr hg).mono fun s h => opensDisplayed_iff.mp h⟩

/-- A search finds an artist and the bar is cleared: the row is still there, and a tap on it traps. -/
theorem tap_after_clear_traps :
    ¬ Runs.Always step OpensDisplayed launch
      [.textDidChange "a", .debounce, .response 0 (.ok (found "A")), .textDidChange ""] ∧
    (Runs.exec step launch
      [.textDidChange "a", .debounce, .response 0 (.ok (found "A")), .textDidChange ""]).map
      (fun s => (s.viewModel.numberOfItems, s.didSelectItemAt 0)) = some (1, .trapped) := by
  constructor
  · intro h
    have hlast := h.last (Option.some_get (by decide +kernel)).symm
    exact absurd (numberOfItems_eq_zero_of_cleared hlast (by decide +kernel)) (by decide +kernel)
  · decide +kernel

end Spotify.SearchViewController
