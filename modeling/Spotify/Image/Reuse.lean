import Spotify.Image.Views

/-!
# Spotify.Image.Reuse — the picture of a reused cell

The handler of a cell knows its cell and not the URL it was made for.  A block that was queued before the
cell was reused sets the earlier picture, and cancelling does not reach it; what a cell shows is the picture
of its current URL exactly as long as no such block is late (`reused_cell_shows`).
-/

namespace Spotify.ImageViews

variable {F : Foundation} {s s' : Noted}

/-- What a cell may show: nothing, the placeholder, or the picture fetched for the URL it asked for last since
its last reuse. -/
def MayShow (g : ImageNotes) (cell : ℕ) (image : Option UIImage) : Prop :=
  image = none ∨ image = some placeholderImage ∨
    ∃ u picture, g.current cell = some u ∧ image = some picture ∧ Fetched g.ended u picture

def ShowsCurrent (s : Noted) : Prop := ∀ cell, MayShow s.2 cell (s.1.1.cells cell).image

/-- The main thread runs a block that gives a picture to a cell only while the cell still wants its URL. -/
def Timely (s : Noted) (l : ViewLabel) : Prop :=
  ∀ call queue cell picture, l = .main → s.1.1.downloader.mainQueue = call :: queue →
    call.completionHandler.cell = some cell → call.image = some picture → picture ≠ placeholderImage →
      call.completionHandler.url = s.2.current cell

/-- No picture was fetched for two URLs. -/
def DistinctPictures (s : Noted) : Prop :=
  ∀ u u' picture, Fetched s.2.ended u picture → Fetched s.2.ended u' picture → u = u'

/-! ### One step -/

/-- The blocks of a cell: nothing, the placeholder, or the picture of their own URL. -/
theorem Sound.queued_image (hs : Sound F s) {call : ImageCall ImageRequest}
    (hcall : call ∈ s.1.1.downloader.mainQueue) (hcell : call.completionHandler.cell ≠ none) :
    call.image = none ∨ call.image = some placeholderImage ∨
      ∃ u picture, call.completionHandler.url = some u ∧ call.image = some picture ∧
        Fetched s.2.ended u picture := by
  rcases hs.answers call (List.mem_append_right _ hcall) with hnone | hpicture | ⟨hi, -⟩
  · exact .inl hnone
  · exact .inr (.inr hpicture)
  · have hr := hs.mem_requests call.completionHandler
      (List.mem_append_left _ (List.mem_append_right _ (List.mem_map_of_mem hcall)))
    exact .inr (.inl (hi.trans (hs.cell _ hr hcell)))

/-- The cells after a step. -/
theorem cells_noted {l : ViewLabel} (h : noted F s l = some s') : s'.1.1.cells = match l with
    | .downloadImage cell url => Function.update s.1.1.cells cell
        ((s.1.1.cells cell).downloadImage F url (s.1.1.ask (some cell) (some url) (some placeholderImage))
          s.1.1.downloader).1
    | .prepareForReuse cell =>
      Function.update s.1.1.cells cell ((s.1.1.cells cell).prepareForReuse s.1.1.downloader).1
    | .main => s.1.1.downloader.mainQueue.head?.elim s.1.1.cells (deliver s.1.1.cells)
    | _ => s.1.1.cells := by
  obtain ⟨h, -⟩ := Runs.annotated_eq_some.mp h
  obtain ⟨out, h, -⟩ := Runs.logged_eq_some.mp h
  cases l with
  | downloadImage | prepareForReuse | request =>
    rw [← (Prod.mk.inj (Option.some.inj h)).1]
  | handler task o =>
    obtain ⟨r, -, h⟩ := Option.map_eq_some_iff.mp h
    rw [← (Prod.mk.inj h).1]
  | main =>
    obtain ⟨⟨d', called⟩, hr, h⟩ := Option.map_eq_some_iff.mp h
    rw [← (Prod.mk.inj h).1]
    cases ImageDownlaoder.step_effect hr with
    | delivered call queue hq =>
      rw [hq]
      rfl

theorem deliver_own {cells : ℕ → SpotifyCollectionViewCell} {call : ImageCall ImageRequest} {cell : ℕ}
    (h : call.completionHandler.cell = some cell) : (deliver cells call cell).image = call.image := by
  simp only [deliver, h, Function.update_self, SpotifyCollectionViewCell.setImage]

theorem deliver_other {cells : ℕ → SpotifyCollectionViewCell} {call : ImageCall ImageRequest} {cell : ℕ}
    (h : call.completionHandler.cell ≠ some cell) : deliver cells call cell = cells cell := by
  unfold deliver
  cases hc : call.completionHandler.cell with
  | none => rfl
  | some cell' =>
    refine Function.update_of_ne ?_ ..
    rintro rfl
    exact h hc

theorem MayShow.append {g g' : ImageNotes} {cell : ℕ} {image : Option UIImage}
    {more : List (Download ImageRequest × DownloadOutcome)} (h : MayShow g cell image)
    (hcurrent : g'.current cell = g.current cell) (hended : g'.ended = g.ended ++ more) :
    MayShow g' cell image := by
  rcases h with h | h | ⟨u, picture, hu, hi, hf⟩
  · exact .inl h
  · exact .inr (.inl h)
  · exact .inr (.inr ⟨u, picture, hcurrent.trans hu, hi, hended ▸ hf.append more⟩)

theorem showsCurrent_start : ShowsCurrent start := fun _ => .inl rfl

theorem ShowsCurrent.step {l : ViewLabel} (hs : Sound F s) (hc : ShowsCurrent s) (hl : Timely s l)
    (h : noted F s l = some s') : ShowsCurrent s' := by
  intro cell
  obtain ⟨more, hmore⟩ := ended_noted h
  have hcells := cells_noted h
  have hnote := (noted_inv h).1
  cases l with
  | downloadImage cell' url =>
    simp only at hcells
    by_cases hcell : cell = cell'
    · subst hcell
      rw [hcells, Function.update_self, SpotifyCollectionViewCell.image_downloadImage]
      cases hi : s.1.1.downloader.cachedImages url with
      | none => exact .inr (.inl rfl)
      | some picture =>
        refine .inr (.inr ⟨url, picture, ?_, rfl, hmore ▸ (hs.stocked.cached url picture hi).append more⟩)
        rw [hnote]
        exact Function.update_self ..
    · rw [hcells, Function.update_of_ne hcell]
      refine (hc cell).append ?_ hmore
      rw [hnote]
      exact Function.update_of_ne hcell ..
  | prepareForReuse cell' =>
    simp only at hcells
    by_cases hcell : cell = cell'
    · subst hcell
      rw [hcells, Function.update_self]
      exact .inl SpotifyCollectionViewCell.image_prepareForReuse
    · rw [hcells, Function.update_of_ne hcell]
      refine (hc cell).append ?_ hmore
      rw [hnote]
      exact Function.update_of_ne hcell ..
  | request | handler =>
    rw [hcells]
    exact (hc cell).append (by rw [hnote]; rfl) hmore
  | main =>
    have hkeep : MayShow s'.2 cell (s.1.1.cells cell).image := (hc cell).append (by rw [hnote]; rfl) hmore
    rw [hcells]
    cases hq : s.1.1.downloader.mainQueue with
    | nil => exact hkeep
    | cons call queue =>
      simp only [List.head?_cons, Option.elim_some]
      by_cases hcell : call.completionHandler.cell = some cell
      · rw [deliver_own hcell]
        have hmem : call ∈ s.1.1.downloader.mainQueue := by rw [hq]; exact List.mem_cons_self
        rcases hs.queued_image hmem (by simp [hcell]) with hi | hi | ⟨u, picture, hu, hi, hf⟩
        · exact .inl hi
        · exact .inr (.inl hi)
        · by_cases hp : picture = placeholderImage
          · exact .inr (.inl (hp ▸ hi))
          · refine .inr (.inr ⟨u, picture, ?_, hi, hmore ▸ hf.append more⟩)
            rw [hnote, ← hu]
            exact (hl call queue cell picture rfl hq hcell hi hp).symm
      · rw [deliver_other hcell]
        exact hkeep

/-- A late block shows, when pictures tell URLs apart. -/
theorem timely_of_showsCurrent {l : ViewLabel} (hs : Sound F s) (h : noted F s l = some s')
    (hd : DistinctPictures s') (hc' : ShowsCurrent s') : Timely s l := by
  rintro call queue cell picture rfl hq hcell hi hp
  have hmem : call ∈ s.1.1.downloader.mainQueue := by rw [hq]; exact List.mem_cons_self
  obtain ⟨more, hmore⟩ := ended_noted h
  have hshown := hc' cell
  rw [cells_noted h, hq] at hshown
  simp only [List.head?_cons, Option.elim_some, deliver_own hcell, hi] at hshown
  have hcurrent : s'.2.current = s.2.current := by
    rw [(noted_inv h).1]
    rfl
  rcases hs.queued_image hmem (by simp [hcell]) with hown | hown | ⟨u, picture', hu, hown, hf⟩
  · rw [hi] at hown
    cases hown
  · exact absurd (Option.some.inj (hi.symm.trans hown)) hp
  · obtain rfl := Option.some.inj (hi.symm.trans hown)
    rcases hshown with hno | hno | ⟨u', picture', hu', hsame, hf'⟩
    · cases hno
    · exact absurd (Option.some.inj hno) hp
    · obtain rfl := Option.some.inj hsame
      obtain rfl := hd u u' picture (hmore ▸ hf.append more) hf'
      rw [hu, ← hcurrent, hu']

/-- **What reused cells show.**  When every block that gives a picture to a cell runs while the cell still
wants its URL, every cell shows nothing, the placeholder or the picture of its current URL, in every state.
In the runs where no picture belongs to two URLs this is the exact condition. -/
theorem reused_cell_shows (F : Foundation) (ls : List ViewLabel) :
    (Runs.EachStep (noted F) (fun s l _ => Timely s l) start ls →
      Runs.Always (noted F) ShowsCurrent start ls) ∧
    (Runs.EachStep (noted F) (fun _ _ s' => DistinctPictures s') start ls →
      (Runs.Always (noted F) ShowsCurrent start ls ↔
        Runs.EachStep (noted F) (fun s l _ => Timely s l) start ls)) := by
  have hkeep : ∀ s l s', Sound F s ∧ ShowsCurrent s → Timely s l → noted F s l = some s' →
      Sound F s' ∧ ShowsCurrent s' := fun s l s' hI hl h => ⟨hI.1.step h, hI.2.step hI.1 hl h⟩
  constructor
  · intro hls
    exact (Runs.always_of_eachStep hkeep ⟨sound_start, showsCurrent_start⟩ hls).mono fun _ hI => hI.2
  · refine Runs.always_iff_eachStep_on (I := fun s => Sound F s ∧ ShowsCurrent s) (fun _ hI => hI.2)
      (fun s l s' hI _ => hkeep s l s' hI) ?_ ⟨sound_start, showsCurrent_start⟩
    exact fun s l s' hI hd h hc' => timely_of_showsCurrent hI.1 h hd hc'

/-- The block with the first picture is queued, the cell is reused for a second URL, and the block runs. -/
theorem late_block_shown : ¬ Runs.Always (noted .ascii) ShowsCurrent start
    [.downloadImage 0 "a", .handler 0 (.data (some (.decoded [1])) false), .prepareForReuse 0,
      .downloadImage 0 "b", .main] := by
  intro h
  obtain ⟨s, hs, hi, hcurrent, hended⟩ : ∃ s, Runs.exec (noted .ascii) start
      [.downloadImage 0 "a", .handler 0 (.data (some (.decoded [1])) false), .prepareForReuse 0,
        .downloadImage 0 "b", .main] = some s ∧
      (s.1.1.cells 0).image = some (.decoded [1]) ∧ s.2.current 0 = some "b" ∧
        s.2.ended.map (fun x => (x.1.urlString, x.2)) = [("a", .data (some (.decoded [1])) false)] :=
    Runs.exec_of_any (by decide +kernel)
  have hshown := h.last hs 0
  rw [hi] at hshown
  rcases hshown with hno | hno | ⟨u, picture, hu, -, hf⟩
  · cases hno
  · cases hno
  · rw [hcurrent] at hu
    cases hu
    obtain ⟨t, ht, hu⟩ := hf
    have hmem := List.mem_map_of_mem (f := fun x => (x.1.urlString, x.2)) ht
    rw [hended, hu] at hmem
    simp at hmem

end Spotify.ImageViews
