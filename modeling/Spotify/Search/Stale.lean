import Spotify.Search.ViewModel

/-!
# Spotify.Search.Stale — which response is on display

The completion of `getArtists` stores every decoded response, whichever search it answers.  The runs below
carry a note of the search whose response was stored last; `Stores` ties the note to the three fields.
The issue number in the note never decreases exactly when the successful answers arrive in issue order
(`never_older_iff`).
-/

namespace Spotify.SearchViewController

variable {s t : SearchViewController} {ls : List SearchLabel}

/-- A search and the response that answered it. -/
abbrev Shown := Option (ℕ × ArtistsSearchResponse)

/-- Searches are numbered from 1 in issue order; 0 stands for no response. -/
def issueNumber : Shown → ℕ
  | none => 0
  | some (search, _) => search + 1

/-- The successful answer that a label brings. -/
def success : SearchLabel → Shown
  | .response search (.ok model) => some (search, model)
  | _ => none

def noteShown (_ : SearchViewController) (l : SearchLabel) (shown : Shown) : Shown :=
  (success l).or shown

/-- The searches answered with success, in the order of their answers. -/
def successes (ls : List SearchLabel) : List ℕ := (ls.filterMap success).map Prod.fst

/-- The fields hold the response that the note names, or were emptied since. -/
def Stores (s : SearchViewController × Shown) : Prop :=
  s.1.viewModel.artistResponse = s.2.map Prod.snd ∧
  s.1.viewModel.artist = s.2.bind (fun x => x.2.artists) ∧
  (s.1.viewModel.artistArray = s.1.viewModel.artist.map ArtistsResponse.items ∨
    s.1.viewModel.artistArray = some [])

/-- The step puts no older response on display. -/
def NeverOlder (s : SearchViewController × Shown) (_ : SearchLabel)
    (s' : SearchViewController × Shown) : Prop :=
  issueNumber s.2 ≤ issueNumber s'.2

instance (s s' : SearchViewController × Shown) (l : SearchLabel) : Decidable (NeverOlder s l s') :=
  inferInstanceAs (Decidable (_ ≤ _))

theorem successes_cons (l : SearchLabel) (ls : List SearchLabel) :
    successes (l :: ls) = ((success l).map Prod.fst).toList ++ successes ls := by
  cases h : success l <;> simp [successes, h]

theorem mem_successes {search : ℕ} :
    search ∈ successes ls ↔ ∃ model, SearchLabel.response search (.ok model) ∈ ls := by
  simp only [successes, List.mem_map, List.mem_filterMap]
  constructor
  · rintro ⟨⟨_, model⟩, ⟨l, hl, h⟩, rfl⟩
    refine ⟨model, ?_⟩
    unfold success at h
    split at h
    · cases h
      exact hl
    · cases h
  · rintro ⟨model, h⟩
    exact ⟨(search, model), ⟨_, h, rfl⟩, rfl⟩

theorem stores_step {s t : SearchViewController × Shown} {l : SearchLabel} (hs : Stores s)
    (h : Runs.annotated step noteShown s l = some t) : Stores t := by
  obtain ⟨t, shown⟩ := t
  obtain ⟨hl, rfl⟩ := Runs.annotated_eq_some.mp h
  obtain ⟨h1, h2, h3⟩ := hs
  have he := step_effect hl
  unfold Stores
  simp only at he ⊢
  generalize t.viewModel = vm at he ⊢
  cases he with
  | cleared => exact ⟨h1, h2, .inr rfl⟩
  | typed | issued | delivered => exact ⟨h1, h2, h3⟩
  | issuedEmpty => exact ⟨h1, h2, .inr rfl⟩
  | succeeded search model => exact ⟨rfl, rfl, .inl rfl⟩
  | failed => exact ⟨h1, h2, h3⟩

/-- From any state: the note never goes back exactly when the answers come in issue order and none of
them is older than what is shown at the start. -/
theorem never_older_from (shown : Shown) (h : Runs.exec step s ls = some t) :
    Runs.EachStep (Runs.annotated step noteShown) NeverOlder (s, shown) ls ↔
      (successes ls).Pairwise (· ≤ ·) ∧ ∀ search ∈ successes ls, issueNumber shown ≤ search + 1 := by
  induction ls generalizing s shown with
  | nil => exact iff_of_true Runs.eachStep_nil ⟨List.Pairwise.nil, fun _ h => absurd h List.not_mem_nil⟩
  | cons l ls ih =>
    obtain ⟨u, hu, h⟩ := Option.bind_eq_some_iff.mp h
    have hstep : Runs.EachStep (Runs.annotated step noteShown) NeverOlder (s, shown) (l :: ls) ↔
        issueNumber shown ≤ issueNumber ((success l).or shown) ∧
        Runs.EachStep (Runs.annotated step noteShown) NeverOlder (u, (success l).or shown) ls := by
      rw [Runs.eachStep_cons]
      have hl : Runs.annotated step noteShown (s, shown) l = some (u, (success l).or shown) :=
        Runs.annotated_eq_some.mpr ⟨hu, rfl⟩
      simp only [hl, Option.some.injEq, forall_eq', NeverOlder]
    rw [hstep, ih _ h, successes_cons]
    cases hl : success l with
    | none => simp
    | some x =>
      simp only [Option.some_or, Option.map_some, Option.toList_some, List.singleton_append,
        List.pairwise_cons, List.forall_mem_cons, issueNumber]
      constructor
      · rintro ⟨hx, hp, hle⟩
        exact ⟨⟨fun i hi => Nat.le_of_succ_le_succ (hle i hi), hp⟩, hx,
          fun i hi => hx.trans (hle i hi)⟩
      · rintro ⟨⟨hle, hp⟩, hx, -⟩
        exact ⟨hx, hp, fun i hi => Nat.succ_le_succ (hle i hi)⟩

/-- The note names the last success of the run. -/
theorem shown_eq {shown shown' : Shown}
    (h : Runs.exec (Runs.annotated step noteShown) (s, shown) ls = some (t, shown')) :
    shown' = (ls.filterMap success).getLast?.or shown := by
  refine Runs.exec_getLast? (v := Prod.snd) (fun s l t hl => ?_) h
  exact (Runs.annotated_eq_some.mp hl).2

/-- In issue order, the last success is the one with the largest number. -/
theorem newest_of_inOrder (ho : (successes ls).Pairwise (· ≤ ·)) {search : ℕ}
    (hs : search ∈ successes ls) (hmax : ∀ search' ∈ successes ls, search' ≤ search) :
    ∃ model, (ls.filterMap success).getLast? = some (search, model) := by
  rcases List.eq_nil_or_concat (ls.filterMap success) with hnil | ⟨init, ⟨last, model⟩, hlast⟩
  · simp [successes, hnil] at hs
  · rw [List.concat_eq_append] at hlast
    have hls : successes ls = init.map Prod.fst ++ [last] := by
      rw [successes, hlast, List.map_append]
      rfl
    rw [hls] at ho hs hmax
    have hle : last ≤ search := hmax last (by simp)
    have hge : search ≤ last := by
      rcases List.mem_append.mp hs with hin | hlast
      · exact (List.pairwise_append.mp ho).2.2 search hin last (by simp)
      · exact Nat.le_of_eq (List.mem_singleton.mp hlast)
    obtain rfl := Nat.le_antisymm hle hge
    exact ⟨model, by rw [hlast]; simp⟩

/-- **When a stale response stays away.**  In every run from launch the note names the stored response;
its issue number never decreases if and only if the successful answers arrive in issue order.  In such a
run the response on display at the end is that of the most recent search that has succeeded. -/
theorem never_older_iff (ls : List SearchLabel) (t : SearchViewController)
    (h : Runs.exec step launch ls = some t) :
    Runs.Always (Runs.annotated step noteShown) Stores (launch, none) ls ∧
    (Runs.EachStep (Runs.annotated step noteShown) NeverOlder (launch, none) ls ↔
      (successes ls).Pairwise (· ≤ ·)) ∧
    ((successes ls).Pairwise (· ≤ ·) →
      ∀ search ∈ successes ls, (∀ search' ∈ successes ls, search' ≤ search) →
        ∃ model, .response search (.ok model) ∈ ls ∧
          t.viewModel.artistResponse = some model ∧ t.viewModel.artist = model.artists) := by
  have h0 : Stores (launch, none) := ⟨rfl, rfl, .inl rfl⟩
  refine ⟨fun p s _ hs => Runs.exec_inv (fun s l s' => stores_step) h0 hs, ?_, ?_⟩
  · rw [never_older_from none h]
    simp [issueNumber]
  · intro ho search hs hmax
    obtain ⟨shown, hrun⟩ : ∃ shown,
        Runs.exec (Runs.annotated step noteShown) (launch, none) ls = some (t, shown) :=
      Runs.exec_annotated_iff.mpr h
    obtain ⟨hresp, hart, -⟩ := Runs.exec_inv (fun s l s' => stores_step) h0 hrun
    obtain ⟨model, hlast⟩ := newest_of_inOrder ho hs hmax
    obtain rfl : shown = some (search, model) := by rw [shown_eq hrun, hlast]; rfl
    refine ⟨model, ?_, hresp, hart⟩
    obtain ⟨l, hl, hsucc⟩ := List.mem_filterMap.mp (List.mem_of_getLast? hlast)
    unfold success at hsucc
    split at hsucc
    · cases hsucc
      exact hl
    · cases hsucc

/-- A response with one artist. -/
def found (name : String) : ArtistsSearchResponse := ⟨some ⟨none, [⟨none, name, name, none, none⟩]⟩⟩

/-- Two texts are searched for while neither search has been answered. -/
def twoSearches : List SearchLabel :=
  [.textDidChange "a", .debounce, .textDidChange "ab", .debounce]

theorem answers_in_order :
    Runs.EachStep (Runs.annotated step noteShown) NeverOlder (launch, none)
      (twoSearches ++ [.response 0 (.ok (found "A")), .response 1 (.ok (found "AB"))]) :=
  (never_older_iff _ _ (Option.some_get (by decide +kernel)).symm).2.1.mpr (by decide)

/-- The answers come in the other order: the list shows the result of the first text.  When the bar was
cleared and the empty text was answered, the late answer fills the list again. -/
theorem late_answer_shown :
    ¬ Runs.EachStep (Runs.annotated step noteShown) NeverOlder (launch, none)
      (twoSearches ++ [.response 1 (.ok (found "AB"))] ++ [.response 0 (.ok (found "A"))]) ∧
    (Runs.exec step launch [.textDidChange "a", .debounce, .textDidChange "", .debounce,
      .response 1 (.ok ⟨none⟩), .response 0 (.ok (found "A"))]).map
      (fun s => s.viewModel.numberOfItems) = some 1 :=
  ⟨Runs.not_eachStep_of_exec (by decide +kernel), by decide +kernel⟩

end Spotify.SearchViewController
