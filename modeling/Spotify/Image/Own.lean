import Spotify.Image.Reuse

/-!
# Spotify.Image.Own — pictures keep to their URLs

A late block may set an earlier picture of its own cell, but never one of another: a cell shows only what
was fetched for the URLs that it asked for itself, and a handler is given only what its own request may be
given (`pictures_are_own`).

A cached picture is final once no download of its URL is in flight (`cached_for_good`).  While one is, the
data of no picture may still remove it from the cache.
-/

namespace Spotify.ImageDownlaoder

variable {κ : Type} {F : Foundation} {d d' : ImageDownlaoder κ} {u : String} {image : UIImage}

/-- The picture of `u` is cached, and no download of `u` is in flight, not even a cancelled one. -/
structure Final (u : String) (image : UIImage) (d : ImageDownlaoder κ) : Prop where
  cached : d.cachedImages u = some image
  idle : ∀ task t, d.tasks.find? task = some t → t.urlString ≠ u

theorem Final.effect (hd : Final u image d) {a : ImageLabel κ} {out : List (ImageCall κ)}
    (he : Effect F d a d' out) : Final u image d' := by
  have hfinish : ∀ {id : ℕ} task t, (d.tasks.finish id).find? task = some t → t.urlString ≠ u :=
    fun task t h => hd.idle task t (Pool.find?_finish_eq_some.mp h).2
  cases he with
  | noURL | cached | outstanding | notCancelled | delivered => exact ⟨hd.cached, hd.idle⟩
  | started c p u' url hc hurl ht =>
    refine ⟨hd.cached, fun task t h => ?_⟩
    rw [Pool.find?_start] at h
    split at h
    · cases h
      -- a download starts for a URL without a picture in the cache
      intro hu
      have hu' : d.cachedImages u' = some image := by
        rw [show u' = u from hu]
        exact hd.cached
      rw [hc] at hu'
      cases hu'
    · exact hd.idle task t h
  | cancelled u' id ht =>
    refine ⟨hd.cached, fun task t h => ?_⟩
    rw [Pool.find?_update] at h
    split at h
    · obtain ⟨t₀, h₀, rfl⟩ := Option.map_eq_some_iff.mp h
      exact hd.idle task t₀ h₀
    · exact hd.idle task t h
  | failed id t ht | failedWithData id t image' ht => exact ⟨hd.cached, hfinish⟩
  | fetched id t image' ht =>
    refine ⟨?_, hfinish⟩
    have hne : u ≠ t.urlString := (hd.idle id t ht).symm
    exact (Function.update_of_ne hne ..).trans hd.cached

theorem Final.step (hd : Final u image d) {a : ImageLabel κ} (h : next F d a = some d') :
    Final u image d' := by
  obtain ⟨out, he⟩ := next_effect h
  exact hd.effect he

theorem Final.downloadImage (hd : Final u image d) (c : κ) (p : Option UIImage) :
    d.downloadImage F (some u) c p = (d, [⟨c, some image, true⟩]) := by
  unfold ImageDownlaoder.downloadImage
  simp only [hd.cached]

/-- **A cached picture is final.**  From any state in which the picture of a URL is cached and no download of
that URL is in flight, no run changes or removes it or downloads the URL again, and every request for the URL
is called with it at once and leaves the downloader as it is. -/
theorem cached_for_good (F : Foundation) (d : ImageDownlaoder κ) (u : String) (image : UIImage)
    (ls : List (ImageLabel κ)) (h : Final u image d) :
    Runs.Always (next F) (Final u image) d ls ∧
    Runs.EachStep (next F) (fun d l d' => ∀ c p, l = .downloadImage (some u) c p →
      ImageDownlaoder.step F d l = some (d, [⟨c, some image, true⟩]) ∧ d' = d) d ls := by
  have hkeep : ∀ (d : ImageDownlaoder κ) l d', Final u image d → next F d l = some d' → Final u image d' :=
    fun _ _ _ hd h => hd.step h
  constructor
  · exact fun p d' _ hp => Runs.exec_inv hkeep h hp
  · rintro p l d₁ d₂ - hp hl c placeholder rfl
    have hd₁ := Runs.exec_inv hkeep h hp
    have hstep : ImageDownlaoder.step F d₁ (.downloadImage (some u) c placeholder) =
        some (d₁, [⟨c, some image, true⟩]) :=
      congrArg some (hd₁.downloadImage c placeholder)
    obtain ⟨out, hl⟩ := Runs.silent_eq_some.mp hl
    rw [hstep] at hl
    exact ⟨hstep, (Prod.mk.inj (Option.some.inj hl)).1.symm⟩

/-- The download of `"u"` has ended; it is asked for twice more, and another URL fails. -/
theorem fetched_for_good : ∃ d d' : ImageDownlaoder ℕ,
    Runs.exec (next .ascii) launch
      [.downloadImage (some "u") 0 none, .handler 0 (.data (some (.decoded [7])) false)] = some d ∧
    Runs.exec (next .ascii) d [.downloadImage (some "v") 1 none, .cancelDownloadForUrl "u",
      .handler 1 .noData, .downloadImage (some "u") 2 none] = some d' ∧
    d'.cachedImages "u" = some (.decoded [7]) := by
  obtain ⟨d, hd, hcached, hitems, hrun⟩ : ∃ d : ImageDownlaoder ℕ,
      Runs.exec (next .ascii) launch
        [.downloadImage (some "u") 0 none, .handler 0 (.data (some (.decoded [7])) false)] = some d ∧
      d.cachedImages "u" = some (.decoded [7]) ∧ d.tasks.items = [] ∧
      (Runs.exec (next .ascii) d [.downloadImage (some "v") 1 none, .cancelDownloadForUrl "u",
        .handler 1 .noData, .downloadImage (some "u") 2 none]).isSome = true :=
    Runs.exec_of_any (by decide +kernel)
  obtain ⟨d', hd'⟩ := Option.isSome_iff_exists.mp hrun
  have hidle : ∀ task t, d.tasks.find? task = some t → t.urlString ≠ "u" := by
    intro task t ht
    rw [Pool.find?, hitems] at ht
    cases ht
  obtain ⟨halways, -⟩ := cached_for_good .ascii d "u" (.decoded [7])
    [.downloadImage (some "v") 1 none, .cancelDownloadForUrl "u", .handler 1 .noData,
      .downloadImage (some "u") 2 none] ⟨hcached, hidle⟩
  exact ⟨d, d', hd, hd', (halways.last hd').cached⟩

/-- With a cancelled download of `"u"` still in flight the picture does not last. -/
example : (Runs.exec (next .ascii) (launch : ImageDownlaoder ℕ)
    [.downloadImage (some "u") 0 none, .cancelDownloadForUrl "u", .downloadImage (some "u") 1 none,
      .handler 1 (.data (some (.decoded [7])) false), .handler 0 (.data none false)]).map
    (fun d => d.cachedImages "u") = some none := by decide +kernel

end Spotify.ImageDownlaoder

namespace Spotify.ImageViews

variable {F : Foundation} {s s' : Noted}

/-- The cell has asked for the picture of `u`, before or after it was reused. -/
def Asked (g : ImageNotes) (cell : ℕ) (u : String) : Prop :=
  ∃ r ∈ g.requests, r.cell = some cell ∧ r.url = some u

/-- Nothing, the placeholder, or a picture fetched for a URL that the cell asked for. -/
def Own (g : ImageNotes) (cell : ℕ) (image : Option UIImage) : Prop :=
  image = none ∨ image = some placeholderImage ∨
    ∃ u picture, Asked g cell u ∧ image = some picture ∧ Fetched g.ended u picture

def ShowsOwn (s : Noted) : Prop := ∀ cell, Own s.2 cell (s.1.1.cells cell).image

/-- A handler called so far was passed with a request, and given what that request may be given, or data of
no picture. -/
def CallsOwn (F : Foundation) (s : Noted) : Prop :=
  ∀ call ∈ s.1.2, call.completionHandler ∈ s.2.requests ∧
    (call.image = none ∨ RightAnswer F s.2.ended call.completionHandler call.image)

theorem Own.noted {l : ViewLabel} (h : noted F s l = some s') {cell : ℕ} {image : Option UIImage}
    (ho : Own s.2 cell image) : Own s'.2 cell image := by
  obtain ⟨more, hmore⟩ := ended_noted h
  rcases ho with ho | ho | ⟨u, picture, ⟨r, hr, hcell, hu⟩, hi, hf⟩
  · exact .inl ho
  · exact .inr (.inl ho)
  · have hr' : r ∈ s'.2.requests := by
      rw [requests_noted h]
      exact List.mem_append_left _ hr
    exact .inr (.inr ⟨u, picture, ⟨r, hr', hcell, hu⟩, hi, hmore ▸ hf.append more⟩)

/-- The block that the main thread runs for a cell is of a request of that cell. -/
theorem Sound.own_queued (hs : Sound F s) {call : ImageCall ImageRequest}
    (hcall : call ∈ s.1.1.downloader.mainQueue) {cell : ℕ}
    (hcell : call.completionHandler.cell = some cell) : Own s.2 cell call.image := by
  have hmem : call.completionHandler ∈ s.2.requests :=
    hs.mem_requests _ (List.mem_append_left _ (List.mem_append_right _ (List.mem_map_of_mem hcall)))
  rcases hs.queued_image hcall (by rw [hcell]; exact Option.some_ne_none cell) with hi | hi | hpicture
  · exact .inl hi
  · exact .inr (.inl hi)
  · obtain ⟨u, picture, hu, hi, hf⟩ := hpicture
    exact .inr (.inr ⟨u, picture, ⟨_, hmem, hcell, hu⟩, hi, hf⟩)

theorem showsOwn_start : ShowsOwn start := fun _ => .inl rfl

theorem ShowsOwn.step {l : ViewLabel} (hs : Sound F s) (ho : ShowsOwn s) (h : noted F s l = some s') :
    ShowsOwn s' := by
  intro cell
  have hkeep : Own s'.2 cell (s.1.1.cells cell).image := (ho cell).noted h
  have hcells := cells_noted h
  cases l with
  | downloadImage cell' url =>
    simp only at hcells
    by_cases hcell : cell = cell'
    · subst hcell
      rw [hcells, Function.update_self, SpotifyCollectionViewCell.image_downloadImage]
      cases hi : s.1.1.downloader.cachedImages url with
      | none => exact .inr (.inl rfl)
      | some picture =>
        -- a picture of the cache was fetched for the URL that the cell asks for in this step
        obtain ⟨more, hmore⟩ := ended_noted h
        have hasked : Asked s'.2 cell url := by
          refine ⟨s.1.1.ask (some cell) (some url) (some placeholderImage), ?_, rfl, rfl⟩
          rw [requests_noted h]
          exact List.mem_append_right _ List.mem_cons_self
        exact .inr (.inr ⟨url, picture, hasked, rfl, hmore ▸ (hs.stocked.cached url picture hi).append more⟩)
    · rw [hcells, Function.update_of_ne hcell]
      exact hkeep
  | prepareForReuse cell' =>
    simp only at hcells
    by_cases hcell : cell = cell'
    · subst hcell
      rw [hcells, Function.update_self]
      exact .inl SpotifyCollectionViewCell.image_prepareForReuse
    · rw [hcells, Function.update_of_ne hcell]
      exact hkeep
  | request | handler =>
    rw [hcells]
    exact hkeep
  | main =>
    rw [hcells]
    cases hq : s.1.1.downloader.mainQueue with
    | nil => exact hkeep
    | cons call queue =>
      simp only [List.head?_cons, Option.elim_some]
      by_cases hcell : call.completionHandler.cell = some cell
      · have hmem : call ∈ s.1.1.downloader.mainQueue := by
          rw [hq]
          exact List.mem_cons_self
        rw [deliver_own hcell]
        exact (hs.own_queued hmem hcell).noted h
      · rw [deliver_other hcell]
        exact hkeep

theorem Sound.callsOwn (hs : Sound F s) : CallsOwn F s := by
  intro call hcall
  constructor
  · refine hs.mem_requests _ (List.mem_append_left _ (List.mem_append_left _ ?_))
    exact List.mem_map_of_mem hcall
  · exact hs.answers call (List.mem_append_left _ hcall)

/-- **Pictures are own.**  In every run, whatever cells are reused and whatever is cancelled, a cell shows
nothing, the placeholder, or a picture fetched for a URL that this cell asked for; and a handler called is
that of a request, given the picture of its own URL, its own placeholder, or nothing. -/
theorem pictures_are_own (F : Foundation) (ls : List ViewLabel) :
    Runs.Always (noted F) (fun s => ShowsOwn s ∧ CallsOwn F s) start ls := by
  intro p s _ hs
  have hkeep : ∀ s l s', Sound F s ∧ ShowsOwn s → noted F s l = some s' → Sound F s' ∧ ShowsOwn s' :=
    fun s l s' hI h => ⟨hI.1.step h, hI.2.step hI.1 h⟩
  obtain ⟨hsound, hown⟩ := Runs.exec_inv hkeep ⟨sound_start, showsOwn_start⟩ hs
  exact ⟨hown, hsound.callsOwn⟩

end Spotify.ImageViews
