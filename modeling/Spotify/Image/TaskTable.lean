import Spotify.Image.Downloader

/-!
# Spotify.Image.TaskTable — the table and the live downloads

A download is live from its start until its handler runs, unless it is cancelled.  `Tracks` says that the
table names, for each URL, the live download of that URL.  Two kinds of handlers break it: that of a live
download which fails, since the entry stays, and that of a cancelled download which was given its data
already, since it removes the entry of the download that replaced it (`table_exact_iff`).
-/

namespace Spotify.ImageDownlaoder

variable {κ : Type} {F : Foundation} {s s' : ImageDownlaoder κ}

def isLive (u : String) (d : Download κ) : Bool := d.urlString = u && !d.cancelled

/-- How many downloads of `u` are live. -/
def live (s : ImageDownlaoder κ) (u : String) : ℕ := s.tasks.count (isLive u)

/-- The table is exactly the set of live downloads. -/
def TableExact (s : ImageDownlaoder κ) : Prop :=
  ∀ u, (s.imagesDownloadTasks u ≠ none ↔ s.live u = 1) ∧ (s.imagesDownloadTasks u = none → s.live u = 0)

/-- The handler of a live download is given data and no error; that of a cancelled one is not, or finds no
entry for its URL. -/
def Settles (s : ImageDownlaoder κ) (l : ImageLabel κ) : Prop :=
  ∀ task o d, l = .handler task o → s.tasks.find? task = some d →
    if d.cancelled then (∃ image, o = .data image false) → s.imagesDownloadTasks d.urlString = none
    else ∃ image, o = .data image false

/-- The download `task` is a live one of `u`. -/
def LiveAt (s : ImageDownlaoder κ) (u : String) (task : ℕ) : Prop :=
  ∃ d, s.tasks.find? task = some d ∧ isLive u d = true

/-- The entries name the live downloads. -/
def Tracks (s : ImageDownlaoder κ) : Prop :=
  ∀ u task, s.imagesDownloadTasks u = some task ↔ LiveAt s u task

theorem isLive_iff {u : String} {d : Download κ} :
    isLive u d = true ↔ d.urlString = u ∧ d.cancelled = false := by
  simp [isLive]

theorem tracks_launch : Tracks (launch : ImageDownlaoder κ) := by
  intro u task
  constructor
  · intro h
    cases h
  · rintro ⟨d, hd, -⟩
    cases hd

theorem live_pos {u : String} {task : ℕ} (h : LiveAt s u task) : 0 < s.live u := by
  obtain ⟨d, hd, hlive⟩ := h
  exact Pool.count_pos hd hlive

theorem live_eq_zero {u : String} (h : ∀ task, ¬ LiveAt s u task) : s.live u = 0 := by
  refine Pool.count_eq_zero fun task d hd => ?_
  by_contra hlive
  exact h task ⟨d, hd, by simpa using hlive⟩

theorem Tracks.tableExact (hs : Tracks s) : TableExact s := by
  intro u
  cases ht : s.imagesDownloadTasks u with
  | none =>
    have hzero : s.live u = 0 := by
      refine live_eq_zero fun task hlive => ?_
      have := (hs u task).mpr hlive
      rw [ht] at this
      cases this
    simp [hzero]
  | some task =>
    obtain ⟨d, hd, hlive⟩ := (hs u task).mp ht
    have hone : s.live u = 1 := by
      refine Pool.count_eq_one hd hlive fun task' d' hd' hlive' => ?_
      have := (hs u task').mpr ⟨d', hd', hlive'⟩
      rw [ht] at this
      exact (Option.some.inj this).symm
    simp [hone]

/-! ### What the steps do to the table -/

theorem liveAt_start {u u' : String} {url : URL} {c : κ} {p : Option UIImage} {task : ℕ}
    {table : String → Option ℕ} :
    LiveAt ({ s with tasks := s.tasks.start ⟨u, url, c, p, false⟩
                     imagesDownloadTasks := table } : ImageDownlaoder κ) u' task ↔
      (task = s.tasks.next ∧ u' = u) ∨ LiveAt s u' task := by
  unfold LiveAt
  simp only [Pool.find?_start]
  by_cases ht : task = s.tasks.next
  · subst ht
    simpa [isLive, Pool.find?_next] using eq_comm
  · simp [ht]

theorem liveAt_finish {u : String} {task id : ℕ} {table : String → Option ℕ}
    {cache : String → Option UIImage} {queue : List (ImageCall κ)} :
    LiveAt (⟨cache, table, s.tasks.finish id, queue⟩ : ImageDownlaoder κ) u task ↔
      task ≠ id ∧ LiveAt s u task := by
  unfold LiveAt
  simp only [Pool.find?_finish_eq_some]
  constructor
  · rintro ⟨d, ⟨hne, hd⟩, hlive⟩
    exact ⟨hne, d, hd, hlive⟩
  · rintro ⟨hne, d, hd, hlive⟩
    exact ⟨d, ⟨hne, hd⟩, hlive⟩

theorem liveAt_cancel {u : String} {task id : ℕ} {table : String → Option ℕ} :
    LiveAt ({ s with tasks := s.tasks.update id Download.cancel
                     imagesDownloadTasks := table } : ImageDownlaoder κ) u task ↔
      task ≠ id ∧ LiveAt s u task := by
  unfold LiveAt
  simp only [Pool.find?_update]
  by_cases ht : task = id
  · simp [ht, isLive, Download.cancel]
  · simp [ht]

theorem LiveAt.url_eq {u : String} {task : ℕ} {d : Download κ} (h : LiveAt s u task)
    (hd : s.tasks.find? task = some d) : d.urlString = u ∧ d.cancelled = false := by
  obtain ⟨d', hd', hlive⟩ := h
  rw [hd] at hd'
  cases hd'
  exact isLive_iff.mp hlive

/-- Emptying an entry, when the live downloads lose at most the one it names. -/
theorem Tracks.clear (hs : Tracks s) {u : String} {id : ℕ}
    (hid : s.imagesDownloadTasks u = none ∨ s.imagesDownloadTasks u = some id)
    (hu : ∀ u', LiveAt s u' id → u' = u)
    (htable : s'.imagesDownloadTasks = Function.update s.imagesDownloadTasks u none)
    (hlive : ∀ u' task, LiveAt s' u' task ↔ task ≠ id ∧ LiveAt s u' task) : Tracks s' := by
  intro u' task
  rw [htable, hlive]
  by_cases h : u' = u
  · subst h
    simp only [Function.update_self]
    refine iff_of_false (by simp) ?_
    rintro ⟨hne, hlv⟩
    have htask := (hs u' task).mpr hlv
    rcases hid with hnone | hsome
    · rw [hnone] at htask
      cases htask
    · rw [hsome] at htask
      exact hne (Option.some.inj htask).symm
  · rw [Function.update_of_ne h, hs u' task]
    refine ⟨fun hlv => ⟨?_, hlv⟩, fun hlv => hlv.2⟩
    rintro rfl
    exact h (hu u' hlv)

/-- Forgetting a cancelled download, the table left as it is. -/
theorem Tracks.drop (hs : Tracks s) {id : ℕ} {d : Download κ} (hd : s.tasks.find? id = some d)
    (hc : d.cancelled = true) (htable : s'.imagesDownloadTasks = s.imagesDownloadTasks)
    (hlive : ∀ u' task, LiveAt s' u' task ↔ task ≠ id ∧ LiveAt s u' task) : Tracks s' := by
  intro u' task
  rw [htable, hlive, ← hs u' task]
  refine ⟨fun h => ⟨?_, h⟩, fun h => h.2⟩
  rintro rfl
  rw [(((hs u' task).mp h).url_eq hd).2] at hc
  cases hc

theorem Settles.cancelled {task : ℕ} {o : DownloadOutcome} {d : Download κ}
    (hg : Settles s (.handler task o)) (hd : s.tasks.find? task = some d)
    (ho : ∀ image, o ≠ .data image false) : d.cancelled = true := by
  by_contra hc
  have hdata := hg task o d rfl hd
  rw [if_neg hc] at hdata
  obtain ⟨image, hdata⟩ := hdata
  exact ho image hdata

theorem Tracks.effect {l : ImageLabel κ} {out : List (ImageCall κ)} (hs : Tracks s) (hg : Settles s l)
    (he : Effect F s l s' out) : Tracks s' := by
  cases he with
  | noURL | cached | outstanding | notCancelled | delivered => exact hs
  | started c p u url _ _ ht =>
    intro u' task
    rw [liveAt_start, ← hs u' task]
    by_cases h : u' = u
    · subst h
      simp [ht, eq_comm]
    · simp [h]
  | cancelled u task ht =>
    refine hs.clear (.inr ht) (fun u' hlv => ?_) rfl fun u' task' => liveAt_cancel
    obtain ⟨d, hd, hlive⟩ := (hs u task).mp ht
    rw [← (hlv.url_eq hd).1, (isLive_iff.mp hlive).1]
  | failed task d hd =>
    exact hs.drop hd (hg.cancelled hd (by simp)) rfl fun u' task' => liveAt_finish
  | failedWithData task d image hd =>
    exact hs.drop hd (hg.cancelled hd (by simp)) rfl fun u' task' => liveAt_finish
  | fetched task d image hd =>
    have hentry : s.imagesDownloadTasks d.urlString = none ∨
        s.imagesDownloadTasks d.urlString = some task := by
      cases hc : d.cancelled with
      | false => exact .inr ((hs _ task).mpr ⟨d, hd, isLive_iff.mpr ⟨rfl, hc⟩⟩)
      | true =>
        have hnone := hg task _ d rfl hd
        rw [hc, if_pos rfl] at hnone
        exact .inl (hnone ⟨image, rfl⟩)
    exact hs.clear hentry (fun u' hlv => (hlv.url_eq hd).1.symm) rfl fun u' task' => liveAt_finish

/-! ### Which steps break the table -/

/-- The entry of a live download whose handler leaves the table stays without a download. -/
theorem not_tableExact_of_failed (hs : Tracks s) {id : ℕ} {d : Download κ}
    (hd : s.tasks.find? id = some d) (hc : d.cancelled = false)
    (htable : s'.imagesDownloadTasks = s.imagesDownloadTasks)
    (hlive : ∀ u' task, LiveAt s' u' task ↔ task ≠ id ∧ LiveAt s u' task) : ¬ TableExact s' := by
  intro h'
  have ht : s.imagesDownloadTasks d.urlString = some id :=
    (hs _ id).mpr ⟨d, hd, isLive_iff.mpr ⟨rfl, hc⟩⟩
  have hzero : s'.live d.urlString = 0 := by
    refine live_eq_zero fun task hlv => ?_
    obtain ⟨hne, hlv⟩ := (hlive _ task).mp hlv
    have htask := (hs _ task).mpr hlv
    rw [ht] at htask
    exact hne (Option.some.inj htask).symm
  have hone := (h' d.urlString).1.mp (by rw [htable, ht]; simp)
  omega

theorem settles_of_tableExact {l : ImageLabel κ} {out : List (ImageCall κ)} (hs : Tracks s)
    (he : Effect F s l s' out) (h' : TableExact s') : Settles s l := by
  rintro id o d rfl hd
  cases hc : d.cancelled with
  | false =>
    rw [if_neg (by simp)]
    cases he with
    | failed => exact absurd h' (not_tableExact_of_failed hs hd hc rfl fun _ _ => liveAt_finish)
    | failedWithData => exact absurd h' (not_tableExact_of_failed hs hd hc rfl fun _ _ => liveAt_finish)
    | fetched _ _ image => exact ⟨image, rfl⟩
  | true =>
    rw [if_pos rfl]
    rintro ⟨image, rfl⟩
    cases he with
    | fetched _ d' _ hd' =>
      rw [hd] at hd'
      cases hd'
      cases ht : s.imagesDownloadTasks d.urlString with
      | none => rfl
      | some task =>
        have hlv := (hs _ task).mp ht
        have hne : task ≠ id := by
          rintro rfl
          rw [(hlv.url_eq hd).2] at hc
          cases hc
        have hzero := (h' d.urlString).2 (Function.update_self _ _ _)
        exact absurd hzero (Nat.ne_of_gt (live_pos (liveAt_finish.mpr ⟨hne, hlv⟩)))

/-- A request for a URL that is neither cached nor being downloaded starts a download. -/
def Starts (F : Foundation) (s : ImageDownlaoder κ) (l : ImageLabel κ) (s' : ImageDownlaoder κ) : Prop :=
  ∀ u c p, l = .downloadImage (some u) c p → s.cachedImages u = none → F.url u ≠ none →
    s.live u = 0 → s'.live u = 1

theorem starts_of_tableExact {l : ImageLabel κ} {out : List (ImageCall κ)} (h : TableExact s)
    (h' : TableExact s') (he : Effect F s l s' out) : Starts F s l s' := by
  rintro u c p rfl hcache hurl hlive
  cases he with
  | noURL _ _ _ hno => exact absurd (hno u rfl).2 hurl
  | cached _ _ _ image hc =>
    rw [hcache] at hc
    cases hc
  | outstanding _ _ _ _ task _ _ ht =>
    have hone := (h u).1.mp (by rw [ht]; simp)
    omega
  | started => exact (h' u).1.mp (by simp)

/-- **When the table is exact.**  In every state of a run from launch the table has an entry for a URL
exactly when one download of it is live, and no download of it is live otherwise, if and only if every
handler `Settles`.  In such a run a request for a URL without a live download starts one, and no two
downloads of a URL are live at once. -/
theorem table_exact_iff (F : Foundation) (ls : List (ImageLabel κ)) :
    (Runs.Always (next F) TableExact launch ls ↔
      Runs.EachStep (next F) (fun s l _ => Settles s l) launch ls) ∧
    (Runs.EachStep (next F) (fun s l _ => Settles s l) launch ls →
      Runs.EachStep (next F) (Starts F) launch ls ∧
      Runs.Always (next F) (fun s => ∀ u, s.live u ≤ 1) launch ls) := by
  have hiff : Runs.Always (next F) TableExact launch ls ↔
      Runs.EachStep (next F) (fun s l _ => Settles s l) launch ls := by
    refine Runs.always_iff_eachStep (I := Tracks) (fun _ h => h.tableExact) ?_ ?_ tracks_launch
    · intro s l s' hs hg h
      obtain ⟨out, he⟩ := next_effect h
      exact hs.effect hg he
    · intro s l s' hs h h'
      obtain ⟨out, he⟩ := next_effect h
      exact settles_of_tableExact hs he h'
  refine ⟨hiff, fun hg => ⟨?_, ?_⟩⟩
  · intro p l s s' hp hs hl
    obtain ⟨out, he⟩ := next_effect hl
    have hex := hiff.mpr hg
    exact starts_of_tableExact (hex p s ((List.prefix_append p [l]).trans hp) hs)
      (hex (p ++ [l]) s' hp (Runs.exec_concat hs hl)) he
  · refine (hiff.mpr hg).mono fun s h u => ?_
    by_cases ht : s.imagesDownloadTasks u = none
    · rw [(h u).2 ht]
      exact Nat.zero_le 1
    · rw [(h u).1.mp ht]

/-- A failed download leaves its entry behind, and the handler of a cancelled one removes the entry of the
download that replaced it. -/
theorem table_goes_wrong :
    ¬ Runs.Always (next Foundation.ascii) TableExact (launch : ImageDownlaoder ℕ)
      [.downloadImage (some "u") 1 none, .handler 0 .noData] ∧
    ¬ Runs.Always (next Foundation.ascii) TableExact (launch : ImageDownlaoder ℕ)
      [.downloadImage (some "u") 1 none, .cancelDownloadForUrl "u", .downloadImage (some "u") 2 none,
        .handler 0 (.data (some (.decoded [])) false)] := by
  constructor
  · intro h
    have hlast := h.last (Option.some_get (by decide +kernel)).symm "u"
    revert hlast
    decide +kernel
  · intro h
    have hlast := h.last (Option.some_get (by decide +kernel)).symm "u"
    revert hlast
    decide +kernel

end Spotify.ImageDownlaoder
