import Spotify.Image.Views

/-!
# Spotify.Image.Requests — who is answered by the downloader

The downloader keeps one completion handler for each download.  A request for a URL with an entry in the
table is dropped, and so is the one whose download ends without data, its own view's doing or not; the data
of no picture is handed on as it is.  These are the only ways in which a request that its cell did not
withdraw misses its answer (`every_request_answered`).
-/

namespace Spotify.ImageViews

variable {F : Foundation} {s s' : Noted}

/-- A download of the request's URL is in flight, or the block with its answer is queued. -/
def Outstanding (s : Noted) (r : ImageRequest) : Prop :=
  (∃ task t, s.1.1.downloader.tasks.find? task = some t ∧ r.url = some t.urlString) ∨
    ∃ call ∈ s.1.1.downloader.mainQueue, call.completionHandler = r

def callsOf (s : Noted) (r : ImageRequest) : List (ImageCall ImageRequest) :=
  s.1.2.filter fun call => call.completionHandler = r

/-- The handler was called once, with the picture or the placeholder as it should be. -/
def AnsweredOnce (F : Foundation) (s : Noted) (r : ImageRequest) : Prop :=
  ∃ call, callsOf s r = [call] ∧ RightAnswer F s.2.ended r call.image

/-- Every request has been answered by the time no download of its URL is outstanding, unless its own cell
withdrew it. -/
def AllAnswered (F : Foundation) (s : Noted) : Prop :=
  ∀ r ∈ s.2.requests, r ∉ s.2.withdrawn → ¬ Outstanding s r → AnsweredOnce F s r

/-- Every request that was not withdrawn has been rightly called, or is queued to be, or is that of a
download in flight. -/
structure Kept (F : Foundation) (s : Noted) : Prop where
  placed : ∀ r ∈ s.2.requests, r ∉ s.2.withdrawn → r ∈ places s.1.1.downloader s.1.2
  right : ∀ call ∈ s.1.2 ++ s.1.1.downloader.mainQueue, call.completionHandler ∉ s.2.withdrawn →
    RightAnswer F s.2.ended call.completionHandler call.image

/-- A request for a valid URL whose picture is not cached finds no entry in the table; and a download whose
request was not withdrawn ends with data, and with a picture unless there is an error or no placeholder. -/
structure Answerable (F : Foundation) (s : Noted) (l : ViewLabel) : Prop where
  asked : ∀ u c p, s.1.1.action l = some (.downloadImage (some u) c p) →
    s.1.1.downloader.cachedImages u = none → F.url u ≠ none →
      s.1.1.downloader.imagesDownloadTasks u = none
  ended : ∀ task o t, l = .handler task o → s.1.1.downloader.tasks.find? task = some t →
    t.completionHandler ∉ s.2.withdrawn →
      o ≠ .noData ∧ (o = .data none false → t.placeholderImage = none)

/-! ### Called once -/

theorem Sound.callsOf_le (hs : Sound F s) (r : ImageRequest) : (callsOf s r).length ≤ 1 := by
  have hnd : (s.1.2.map ImageCall.completionHandler).Nodup :=
    (List.nodup_append.mp (List.nodup_append.mp hs.nodup).1).1
  have hcount : (s.1.2.map ImageCall.completionHandler).count r = (callsOf s r).length := by
    rw [callsOf, List.count, List.countP_map, List.countP_eq_length_filter]
    rfl
  rw [← hcount]
  exact List.nodup_iff_count_le_one.mp hnd r

theorem Kept.allAnswered (hs : Sound F s) (hk : Kept F s) : AllAnswered F s := by
  intro r hr hw hout
  have hcalled : r ∈ s.1.2.map ImageCall.completionHandler := by
    have hplace := hk.placed r hr hw
    rw [places, List.mem_append, List.mem_append] at hplace
    rcases hplace with (hcalled | hqueued) | hheld
    · exact hcalled
    · obtain ⟨call, hcall, hr'⟩ := List.mem_map.mp hqueued
      exact absurd (.inr ⟨call, hcall, hr'⟩) hout
    · obtain ⟨task, t, ht, hr'⟩ := (Pool.mem_collect _).mp hheld
      cases hr'
      exact absurd (.inl ⟨task, t, ht, (hs.stocked.tasks task t ht).1⟩) hout
  obtain ⟨call, hcall, rfl⟩ := List.mem_map.mp hcalled
  have hmem : call ∈ callsOf s call.completionHandler := List.mem_filter.mpr ⟨hcall, by simp⟩
  have hle := hs.callsOf_le call.completionHandler
  refine ⟨call, ?_, hk.right call (List.mem_append_left _ hcall) hw⟩
  cases hc : callsOf s call.completionHandler with
  | nil =>
    rw [hc] at hmem
    cases hmem
  | cons first rest =>
    rw [hc] at hmem hle
    obtain rfl : rest = [] := List.eq_nil_of_length_eq_zero (by simpa using hle)
    rw [List.mem_singleton.mp hmem]

/-! ### Kept along runs -/

theorem kept_start : Kept F start where
  placed _ h := absurd h List.not_mem_nil
  right _ h := absurd h List.not_mem_nil

/-- What an answerable step drops was withdrawn. -/
theorem Answerable.drops_withdrawn {l : ViewLabel} (hl : Answerable F s l) {r : ImageRequest}
    (hr : r ∈ drops F s l) : r ∈ s.2.withdrawn := by
  rcases mem_drops.mp hr with ⟨u, p, ha, hc, hurl, ht⟩ | ⟨task, t, rfl, ht, rfl⟩
  · exact absurd (hl.asked u r p ha hc hurl) ht
  · by_contra hw
    exact (hl.ended task _ t rfl ht hw).1 rfl

theorem Kept.step {l : ViewLabel} (hs : Sound F s) (hk : Kept F s) (hl : Answerable F s l)
    (h : noted F s l = some s') : Kept F s' where
  placed r hr hw := by
    have hw₀ : r ∉ s.2.withdrawn := fun hmem => hw (subset_withdrawn_noted h hmem)
    have hmem : r ∈ places s.1.1.downloader s.1.2 ++ asks s l := by
      rw [requests_noted h] at hr
      exact List.mem_append.mpr ((List.mem_append.mp hr).imp_left fun hr => hk.placed r hr hw₀)
    rcases List.mem_append.mp ((perm_noted h).mem_iff.mp hmem) with hplace | hdrop
    · exact hplace
    · exact absurd (hl.drops_withdrawn hdrop) hw₀
  right call hcall hw := by
    have hw₀ : call.completionHandler ∉ s.2.withdrawn := fun hmem => hw (subset_withdrawn_noted h hmem)
    obtain ⟨more, hmore⟩ := ended_noted h
    rcases noted_call_cases hs.stocked h hcall with hold | hright | ⟨task, t, rfl, ht, rfl⟩
    · rw [hmore]
      exact (hk.right call hold hw₀).append more
    · exact hright
    · -- data of no picture is a failure, and there is no placeholder to show for it
      have hp := (hl.ended task _ t rfl ht hw₀).2 rfl
      have hplaceholder := (hs.stocked.tasks task t ht).2
      refine .inr ⟨by rw [← hplaceholder, hp], .inr ⟨t, .data none false, ?_, rfl, rfl⟩⟩
      rw [(noted_inv h).1]
      simp [note, action, endedBy, ht]

theorem answerable_of_kept {l : ViewLabel} (hs : Sound F s) (h : noted F s l = some s')
    (hk' : Kept F s') : Answerable F s l where
  asked u c p ha hc hurl := by
    by_contra ht
    have hdrop : c ∈ drops F s l := mem_drops.mpr (.inl ⟨u, p, ha, hc, hurl, ht⟩)
    have hask : c ∈ asks s l := by simp [asks, ha, asked]
    -- a request just made was never withdrawn
    have hw : c ∉ s'.2.withdrawn := fun hw =>
      hs.not_mem_of_asks hask ((withdrawn_noted h hw).elim (hs.withdrawn c) id)
    refine hs.not_mem_of_drops h hdrop (hk'.placed c ?_ hw)
    rw [requests_noted h]
    exact List.mem_append_right _ hask
  ended task o t hl ht hw := by
    subst hl
    have hw' : t.completionHandler ∉ s'.2.withdrawn := by
      rw [(noted_inv h).1]
      exact hw
    constructor
    · rintro rfl
      have hdrop : t.completionHandler ∈ drops F s (.handler task .noData) :=
        mem_drops.mpr (.inr ⟨task, t, rfl, ht, rfl⟩)
      refine hs.not_mem_of_drops h hdrop (hk'.placed _ ?_ hw')
      rw [requests_noted h]
      refine List.mem_append_left _ (hs.mem_requests _ (List.mem_append_right _ ?_))
      exact (Pool.mem_collect _).mpr ⟨task, t, ht, rfl⟩
    · rintro rfl
      have hqueued : (⟨t.completionHandler, none, false⟩ : ImageCall ImageRequest) ∈
          s'.1.2 ++ s'.1.1.downloader.mainQueue := by
        rcases (noted_inv h).2.1 with ⟨ha, -, -⟩ | ⟨a, out, ha, he, -⟩
        · cases ha
        · cases ha
          generalize s'.1.1.downloader = d' at he ⊢
          cases he with
          | fetched _ t' _ ht' =>
            obtain rfl := Option.some.inj (ht.symm.trans ht')
            simp
      rcases hk'.right _ hqueued hw' with ⟨u, picture, -, hi, -⟩ | ⟨hi, -⟩
      · cases hi
      · rw [(hs.stocked.tasks task t ht).2]
        exact hi.symm

/-- **Who is answered.**  In every run no handler is called twice.  Every request that its cell did not
withdraw is kept until its right answer, in every state, exactly when every step is answerable; and then every
such request has been answered by the time no download of its URL is outstanding. -/
theorem every_request_answered (F : Foundation) (ls : List ViewLabel) :
    Runs.Always (noted F) (fun s => ∀ r, (callsOf s r).length ≤ 1) start ls ∧
    (Runs.Always (noted F) (Kept F) start ls ↔
      Runs.EachStep (noted F) (fun s l _ => Answerable F s l) start ls) ∧
    (Runs.EachStep (noted F) (fun s l _ => Answerable F s l) start ls →
      Runs.Always (noted F) (AllAnswered F) start ls) := by
  have hsound : ∀ s l s', Sound F s → noted F s l = some s' → Sound F s' := fun _ _ _ hs h => hs.step h
  refine ⟨?_, ?_, fun hls => ?_⟩
  · intro p s _ hs r
    exact (Runs.exec_inv hsound sound_start hs).callsOf_le r
  · refine Runs.always_iff_eachStep (I := fun s => Sound F s ∧ Kept F s) (fun _ h => h.2) ?_ ?_
      ⟨sound_start, kept_start⟩
    · exact fun s l s' hI hl h => ⟨hI.1.step h, hI.2.step hI.1 hl h⟩
    · exact fun s l s' hI h hk' => answerable_of_kept hI.1 h hk'
  · refine (Runs.always_of_eachStep (I := fun s => Sound F s ∧ Kept F s) ?_ ⟨sound_start, kept_start⟩
      hls).mono fun s hI => hI.2.allAnswered hI.1
    exact fun s l s' hI hl h => ⟨hI.1.step h, hI.2.step hI.1 hl h⟩

/-- Two cells show one picture: the second is never answered.  And when the second is reused, the first loses
its download. -/
theorem request_lost :
    ¬ Runs.Always (noted .ascii) (AllAnswered .ascii) start
      [.downloadImage 0 "u", .downloadImage 1 "u", .handler 0 (.data (some (.decoded [])) false), .main] ∧
    ¬ Runs.Always (noted .ascii) (AllAnswered .ascii) start
      [.downloadImage 0 "u", .downloadImage 1 "u", .prepareForReuse 1, .handler 0 .noData] := by
  have lost : ∀ (ls : List ViewLabel) (r : ImageRequest),
      (∃ s, Runs.exec (noted .ascii) start ls = some s ∧
        r ∈ s.2.requests ∧ r ∉ s.2.withdrawn ∧ s.1.1.downloader.tasks.items = [] ∧
          s.1.1.downloader.mainQueue = [] ∧ callsOf s r = []) →
      ¬ Runs.Always (noted .ascii) (AllAnswered .ascii) start ls := by
    rintro ls r ⟨s, hs, hr, hw, htasks, hqueue, hno⟩ h
    obtain ⟨call, hcall, -⟩ := h.last hs r hr hw (by
      rintro (⟨task, t, ht, -⟩ | ⟨call, hcall, -⟩)
      · have := Pool.find?_eq_some.mp ht
        rw [htasks] at this
        cases this
      · rw [hqueue] at hcall
        cases hcall)
    rw [hno] at hcall
    cases hcall
  exact ⟨lost _ ⟨1, some 1, some "u", some placeholderImage⟩ (Runs.exec_of_any (by decide +kernel)),
    lost _ ⟨0, some 0, some "u", some placeholderImage⟩ (Runs.exec_of_any (by decide +kernel))⟩

end Spotify.ImageViews
