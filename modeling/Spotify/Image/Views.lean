import Spotify.Image.Cell

/-!
# Spotify.Image.Views — the views that ask for pictures

The cells, the header of the albums and the profile picture over the one downloader.  A request is a
completion handler passed to `downloadImage`; that of a cell sets its picture.  Beside the state the run
keeps the handlers called and notes: the requests made, those that a reused cell withdrew, the downloads that
ended with the requests that they held, and what each cell asked for last.

`Sound` holds in every run: no handler is called twice, and none is given a picture of another URL.
-/

namespace Spotify

structure ImageRequest where
  id : ℕ
  /-- the cell whose picture the handler sets, if it is a cell's -/
  cell : Option ℕ
  url : Option String
  placeholderImage : Option UIImage
  deriving DecidableEq

structure ImageViews where
  downloader : ImageDownlaoder ImageRequest
  cells : ℕ → SpotifyCollectionViewCell
  nextRequest : ℕ

inductive ViewLabel where
  /-- `downloadImage(url:)` and `prepareForReuse` of a cell -/
  | downloadImage (cell : ℕ) (url : String)
  | prepareForReuse (cell : ℕ)
  /-- another view asks -/
  | request (url : Option String) (placeholderImage : Option UIImage)
  /-- the steps of the downloader -/
  | handler (task : ℕ) (outcome : DownloadOutcome)
  | main
  deriving DecidableEq

/-- What is noted of a run. -/
structure ImageNotes where
  requests : List ImageRequest
  withdrawn : List ImageRequest
  /-- the downloads whose handler has run -/
  ended : List (Download ImageRequest × DownloadOutcome)
  /-- the URL of the most recent `downloadImage` of a cell since its last `prepareForReuse` -/
  current : ℕ → Option String

/-- No picture came of the download. -/
def DownloadOutcome.failed : DownloadOutcome → Bool
  | .data (some _) false => false
  | _ => true

namespace ImageViews

variable (F : Foundation)

def launch : ImageViews := ⟨.launch, fun _ => .init, 0⟩

/-- The handler that the next request passes. -/
def ask (cell : Option ℕ) (url : Option String) (placeholderImage : Option UIImage) (s : ImageViews) :
    ImageRequest :=
  ⟨s.nextRequest, cell, url, placeholderImage⟩

/-- A handler being called. -/
def deliver (cells : ℕ → SpotifyCollectionViewCell) (call : ImageCall ImageRequest) :
    ℕ → SpotifyCollectionViewCell :=
  match call.completionHandler.cell with
  | none => cells
  | some cell => Function.update cells cell ((cells cell).setImage call.image)

/-- One step, with the handlers called. -/
def step (s : ImageViews) : ViewLabel → Option (ImageViews × List (ImageCall ImageRequest))
  | .downloadImage cell url =>
    let own := s.ask (some cell) (some url) (some placeholderImage)
    let r := (s.cells cell).downloadImage F url own s.downloader
    some (⟨r.2, Function.update s.cells cell r.1, s.nextRequest + 1⟩,
      (s.downloader.downloadImage F (some url) own (some placeholderImage)).2)
  | .prepareForReuse cell =>
    let r := (s.cells cell).prepareForReuse s.downloader
    some ({ s with downloader := r.2, cells := Function.update s.cells cell r.1 }, [])
  | .request url placeholderImage =>
    let r := s.downloader.downloadImage F url (s.ask none url placeholderImage) placeholderImage
    some ({ s with downloader := r.1, nextRequest := s.nextRequest + 1 }, r.2)
  | .handler task outcome =>
    (s.downloader.step F (.handler task outcome)).map fun r => ({ s with downloader := r.1 }, r.2)
  | .main =>
    (s.downloader.step F .main).map fun r =>
      ({ s with downloader := r.1, cells := r.2.foldl deliver s.cells }, r.2)

/-! ### The notes -/

/-- The step of the downloader behind a step. -/
def action (s : ImageViews) : ViewLabel → Option (ImageLabel ImageRequest)
  | .downloadImage cell url =>
    some (.downloadImage (some url) (s.ask (some cell) (some url) (some placeholderImage))
      (some placeholderImage))
  | .prepareForReuse cell => (s.cells cell).imageUrl.map .cancelDownloadForUrl
  | .request url placeholderImage =>
    some (.downloadImage url (s.ask none url placeholderImage) placeholderImage)
  | .handler task outcome => some (.handler task outcome)
  | .main => some .main

def asked : ImageLabel ImageRequest → List ImageRequest
  | .downloadImage _ completionHandler _ => [completionHandler]
  | _ => []

def endedBy (d : ImageDownlaoder ImageRequest) :
    ImageLabel ImageRequest → List (Download ImageRequest × DownloadOutcome)
  | .handler task outcome => (d.tasks.find? task).toList.map fun t => (t, outcome)
  | _ => []

def note (s : ImageViews × List (ImageCall ImageRequest)) (l : ViewLabel) (g : ImageNotes) :
    ImageNotes where
  requests := g.requests ++ (s.1.action l).toList.flatMap asked
  withdrawn := match l with
    | .prepareForReuse cell =>
      g.withdrawn ++ g.requests.filter fun r => r.cell = some cell ∧ r.url = (s.1.cells cell).imageUrl
    | _ => g.withdrawn
  ended := g.ended ++ (s.1.action l).toList.flatMap (endedBy s.1.downloader)
  current := match l with
    | .downloadImage cell url => Function.update g.current cell (some url)
    | .prepareForReuse cell => Function.update g.current cell none
    | _ => g.current

/-- A state with the handlers called so far, and the notes. -/
abbrev Noted := (ImageViews × List (ImageCall ImageRequest)) × ImageNotes

def noted : Noted → ViewLabel → Option Noted := Runs.annotated (Runs.logged (step F)) note

def start : Noted := ((launch, []), ⟨[], [], [], fun _ => none⟩)

/-! ### Answers -/

/-- `image` was fetched for `u`. -/
def Fetched (ended : List (Download ImageRequest × DownloadOutcome)) (u : String) (image : UIImage) : Prop :=
  ∃ t, (t, .data (some image) false) ∈ ended ∧ t.urlString = u

/-- No picture came of the download that was made for the request. -/
def OwnFailed (ended : List (Download ImageRequest × DownloadOutcome)) (r : ImageRequest) : Prop :=
  ∃ t o, (t, o) ∈ ended ∧ t.completionHandler = r ∧ o.failed = true

/-- What the handler of a request may be given: the picture of its URL, or its placeholder when there is no
valid URL or its own download failed. -/
def RightAnswer (ended : List (Download ImageRequest × DownloadOutcome)) (r : ImageRequest)
    (image : Option UIImage) : Prop :=
  (∃ u picture, r.url = some u ∧ image = some picture ∧ Fetched ended u picture) ∨
  (image = r.placeholderImage ∧ ((∀ u, r.url = some u → F.url u = none) ∨ OwnFailed ended r))

/-- Wherever a request lives: its handler was called, is queued, or is that of a download. -/
def places (d : ImageDownlaoder ImageRequest) (calls : List (ImageCall ImageRequest)) :
    List ImageRequest :=
  calls.map ImageCall.completionHandler ++ d.mainQueue.map ImageCall.completionHandler ++
    d.tasks.collect fun t => some t.completionHandler

/-- The requests that a step of the downloader drops: a download of the URL is outstanding, or there is no
data. -/
def dropped (d : ImageDownlaoder ImageRequest) : ImageLabel ImageRequest → List ImageRequest
  | .downloadImage (some u) c _ =>
    if d.cachedImages u = none ∧ F.url u ≠ none ∧ d.imagesDownloadTasks u ≠ none then [c] else []
  | .handler task .noData => (d.tasks.find? task).toList.map Download.completionHandler
  | _ => []

/-- The tasks hold what was passed with their requests, and the cache what was fetched. -/
structure Stocked (d : ImageDownlaoder ImageRequest)
    (ended : List (Download ImageRequest × DownloadOutcome)) : Prop where
  tasks : ∀ task t, d.tasks.find? task = some t → t.completionHandler.url = some t.urlString ∧
    t.placeholderImage = t.completionHandler.placeholderImage
  cached : ∀ u image, d.cachedImages u = some image → Fetched ended u image

/-- The downloader and the notes agree. -/
structure Sound (s : Noted) : Prop where
  nodup : (places s.1.1.downloader s.1.2).Nodup
  mem_requests : ∀ r ∈ places s.1.1.downloader s.1.2, r ∈ s.2.requests
  lt : ∀ r ∈ s.2.requests, r.id < s.1.1.nextRequest
  withdrawn : ∀ r ∈ s.2.withdrawn, r ∈ s.2.requests
  cell : ∀ r ∈ s.2.requests, r.cell ≠ none → r.placeholderImage = some placeholderImage
  stocked : Stocked s.1.1.downloader s.2.ended
  answers : ∀ call ∈ s.1.2 ++ s.1.1.downloader.mainQueue,
    call.image = none ∨ RightAnswer F s.2.ended call.completionHandler call.image

/-! ### What the downloader does with requests -/

section Downloader

variable {F} {d d' : ImageDownlaoder ImageRequest} {a : ImageLabel ImageRequest}
  {calls out : List (ImageCall ImageRequest)} {ended : List (Download ImageRequest × DownloadOutcome)}

theorem Fetched.append {u : String} {image : UIImage} (h : Fetched ended u image)
    (more : List (Download ImageRequest × DownloadOutcome)) : Fetched (ended ++ more) u image := by
  obtain ⟨t, ht, hu⟩ := h
  exact ⟨t, List.mem_append_left more ht, hu⟩

theorem RightAnswer.append {r : ImageRequest} {image : Option UIImage} (h : RightAnswer F ended r image)
    (more : List (Download ImageRequest × DownloadOutcome)) : RightAnswer F (ended ++ more) r image := by
  rcases h with ⟨u, picture, hu, hi, hf⟩ | ⟨hi, hno | ⟨t, o, ho, hr, hfailed⟩⟩
  · exact .inl ⟨u, picture, hu, hi, hf.append more⟩
  · exact .inr ⟨hi, .inl hno⟩
  · exact .inr ⟨hi, .inr ⟨t, o, List.mem_append_left more ho, hr, hfailed⟩⟩

/-- **Conservation of requests.** -/
theorem perm_places (he : ImageDownlaoder.Effect F d a d' out) :
    (places d calls ++ asked a).Perm (places d' (calls ++ out) ++ dropped F d a) := by
  rw [List.perm_iff_count]
  intro r
  cases he with
  | noURL c p url hurl =>
    have hd : dropped F d (.downloadImage url c p) = [] := by
      cases url with
      | none => rfl
      | some u => simp [dropped, (hurl u rfl).2]
    simp only [places, asked, hd, List.map_append, List.map_cons, List.map_nil, List.count_append,
      List.count_nil]
    omega
  | cached c p u image hc =>
    have hd : dropped F d (.downloadImage (some u) c p) = [] := by simp [dropped, hc]
    simp only [places, asked, hd, List.map_append, List.map_cons, List.map_nil, List.count_append,
      List.count_nil]
    omega
  | outstanding c p u url task hc hurl ht =>
    simp [places, asked, dropped, hc, hurl, ht]
  | started c p u url hc hurl ht =>
    have hd : dropped F d (.downloadImage (some u) c p) = [] := by simp [dropped, ht]
    simp only [places, asked, hd, Pool.collect_start, List.append_nil, List.count_append,
      Option.toList_some]
    omega
  | notCancelled => simp only [places, asked, dropped, List.append_nil]
  | cancelled u task ht =>
    simp only [places, asked, dropped, List.append_nil, Pool.collect_update
      (fun t : Download ImageRequest => some t.completionHandler) (g := Download.cancel) fun _ => rfl]
  | failed task t ht =>
    have hp := (Pool.perm_collect_finish
      (fun t : Download ImageRequest => some t.completionHandler) ht).count_eq r
    simp only [places, asked, dropped, ht, List.append_nil, List.count_append, Option.toList_some,
      List.map_cons, List.map_nil] at hp ⊢
    omega
  | failedWithData task t image ht | fetched task t image ht =>
    have hp := (Pool.perm_collect_finish
      (fun t : Download ImageRequest => some t.completionHandler) ht).count_eq r
    simp only [places, asked, dropped, List.append_nil, List.count_append, Option.toList_some,
      List.map_append, List.map_cons, List.map_nil] at hp ⊢
    omega
  | delivered call queue hq =>
    simp only [places, asked, dropped, hq, List.append_nil, List.count_append, List.map_append,
      List.map_cons, List.map_nil, List.count_cons, List.count_nil]
    omega

/-- A download that another view makes is noted with what was passed. -/
def Passes (a : ImageLabel ImageRequest) : Prop :=
  ∀ url c p, a = .downloadImage url c p → c.url = url ∧ c.placeholderImage = p

theorem Stocked.effect (hd : Stocked d ended) (ha : Passes a) (he : ImageDownlaoder.Effect F d a d' out) :
    Stocked d' (ended ++ endedBy d a) := by
  have hkeep : ∀ u image, d.cachedImages u = some image → Fetched (ended ++ endedBy d a) u image :=
    fun u image h => (hd.cached u image h).append _
  have hfinish : ∀ {id : ℕ} task t, (d.tasks.finish id).find? task = some t →
      t.completionHandler.url = some t.urlString ∧
        t.placeholderImage = t.completionHandler.placeholderImage :=
    fun task t h => hd.tasks task t (Pool.find?_finish_eq_some.mp h).2
  cases he with
  | noURL | cached | outstanding | notCancelled | delivered => exact ⟨hd.tasks, hkeep⟩
  | started c p u url hc hurl ht =>
    refine ⟨fun task t h => ?_, hkeep⟩
    rw [Pool.find?_start] at h
    split at h
    · cases h
      obtain ⟨hu, hp⟩ := ha _ _ _ rfl
      exact ⟨hu, hp.symm⟩
    · exact hd.tasks task t h
  | cancelled u id ht =>
    refine ⟨fun task t h => ?_, hkeep⟩
    rw [Pool.find?_update] at h
    split at h
    · obtain ⟨t₀, h₀, rfl⟩ := Option.map_eq_some_iff.mp h
      exact hd.tasks task t₀ h₀
    · exact hd.tasks task t h
  | failed id t ht | failedWithData id t image ht => exact ⟨hfinish, hkeep⟩
  | fetched id t image ht =>
    refine ⟨hfinish, fun u picture h => ?_⟩
    simp only [Function.update_apply] at h
    split at h
    · subst h
      subst u
      exact ⟨t, List.mem_append_right _ (by simp [endedBy, ht]), rfl⟩
    · exact hkeep u picture h

/-- A handler called or queued was so before, or is given a right answer, or data that is no picture. -/
theorem call_cases (hd : Stocked d ended) (ha : Passes a) (he : ImageDownlaoder.Effect F d a d' out)
    {call : ImageCall ImageRequest} (hcall : call ∈ (calls ++ out) ++ d'.mainQueue) :
    call ∈ calls ++ d.mainQueue ∨
      RightAnswer F (ended ++ endedBy d a) call.completionHandler call.image ∨
      ∃ task t, a = .handler task (.data none false) ∧ d.tasks.find? task = some t ∧
        call = ⟨t.completionHandler, none, false⟩ := by
  have hout : ∀ {queue : List (ImageCall ImageRequest)}, queue = d.mainQueue → call ∈ calls ++ out ++ queue →
      call ∈ calls ++ d.mainQueue ∨ call ∈ out := by
    rintro queue rfl h
    simp only [List.mem_append] at h ⊢
    tauto
  have hqueue : ∀ {new : ImageCall ImageRequest}, call ∈ calls ++ [] ++ (d.mainQueue ++ [new]) →
      call ∈ calls ++ d.mainQueue ∨ call = new := by
    intro new h
    simp only [List.append_nil, List.mem_append, List.mem_singleton] at h ⊢
    tauto
  cases he with
  | noURL c p url hurl =>
    refine (hout rfl hcall).imp_right fun h => .inl ?_
    obtain rfl := List.mem_singleton.mp h
    obtain ⟨hu, hp⟩ := ha _ _ _ rfl
    exact .inr ⟨hp.symm, .inl fun u h => (hurl u (hu.symm.trans h)).2⟩
  | cached c p u image hc =>
    refine (hout rfl hcall).imp_right fun h => .inl ?_
    obtain rfl := List.mem_singleton.mp h
    exact .inl ⟨u, image, (ha _ _ _ rfl).1, rfl, (hd.cached u image hc).append _⟩
  | outstanding | started | notCancelled | cancelled | failed =>
    exact (hout rfl hcall).imp_right fun h => absurd h List.not_mem_nil
  | failedWithData id t image ht =>
    refine (hqueue hcall).imp_right fun h => .inl ?_
    subst h
    have hp := (hd.tasks id t ht).2
    refine .inr ⟨hp, .inr ⟨t, .data image true, List.mem_append_right _ ?_, rfl, by cases image <;> rfl⟩⟩
    simp [endedBy, ht]
  | fetched id t image ht =>
    refine (hqueue hcall).imp_right fun h => ?_
    subst h
    cases image with
    | none => exact .inr ⟨id, t, rfl, ht, rfl⟩
    | some picture =>
      refine .inl (.inl ⟨t.urlString, picture, (hd.tasks id t ht).1, rfl, t, List.mem_append_right _ ?_, rfl⟩)
      simp [endedBy, ht]
  | delivered first queue hq =>
    left
    simp only [hq, List.mem_append, List.mem_cons, List.not_mem_nil] at hcall ⊢
    tauto

end Downloader

/-! ### What a step can do -/

variable {F} {s s' : Noted}

/-- A request is made with a fresh identifier, and that of a cell with the placeholder. -/
theorem asked_action {l : ViewLabel} {a : ImageLabel ImageRequest} (h : s.1.1.action l = some a) :
    Passes a ∧ (asked a = [] ∨ ∃ r, asked a = [r] ∧ r.id = s.1.1.nextRequest ∧
      (r.cell ≠ none → r.placeholderImage = some placeholderImage)) := by
  cases l with
  | downloadImage cell url =>
    cases h
    refine ⟨?_, .inr ⟨_, rfl, rfl, fun _ => rfl⟩⟩
    rintro u c p hl
    cases hl
    exact ⟨rfl, rfl⟩
  | request url p =>
    cases h
    refine ⟨?_, .inr ⟨_, rfl, rfl, fun hc => absurd rfl hc⟩⟩
    rintro u c p hl
    cases hl
    exact ⟨rfl, rfl⟩
  | prepareForReuse cell =>
    obtain ⟨u, -, rfl⟩ := Option.map_eq_some_iff.mp h
    exact ⟨fun u c p hl => (nomatch hl), .inl rfl⟩
  | handler task o =>
    cases h
    exact ⟨fun u c p hl => (nomatch hl), .inl rfl⟩
  | main =>
    cases h
    exact ⟨fun u c p hl => (nomatch hl), .inl rfl⟩

/-- A step runs the step of the downloader behind it, if there is one. -/
theorem noted_inv {l : ViewLabel} (h : noted F s l = some s') :
    s'.2 = note s.1 l s.2 ∧
    ((s.1.1.action l = none ∧ s'.1.1.downloader = s.1.1.downloader ∧ s'.1.2 = s.1.2) ∨
      ∃ a out, s.1.1.action l = some a ∧
        ImageDownlaoder.Effect F s.1.1.downloader a s'.1.1.downloader out ∧ s'.1.2 = s.1.2 ++ out) ∧
    s'.1.1.nextRequest = s.1.1.nextRequest + ((s.1.1.action l).toList.flatMap asked).length := by
  obtain ⟨h, hnote⟩ := Runs.annotated_eq_some.mp h
  obtain ⟨out, h, hout⟩ := Runs.logged_eq_some.mp h
  refine ⟨hnote, ?_⟩
  cases l with
  | downloadImage cell url =>
    obtain ⟨hs, rfl⟩ := Prod.mk.inj (Option.some.inj h)
    rw [← hs]
    exact ⟨.inr ⟨_, _, rfl, ImageDownlaoder.effect_downloadImage .., hout⟩, rfl⟩
  | prepareForReuse cell =>
    obtain ⟨hs, rfl⟩ := Prod.mk.inj (Option.some.inj h)
    rw [← hs, hout]
    cases hu : (s.1.1.cells cell).imageUrl with
    | none =>
      have hno : s.1.1.action (.prepareForReuse cell) = none := by simp only [action, hu, Option.map_none]
      rw [hno]
      exact ⟨.inl ⟨rfl, SpotifyCollectionViewCell.downloader_prepareForReuse_none hu, List.append_nil _⟩, rfl⟩
    | some u =>
      have hcancel : s.1.1.action (.prepareForReuse cell) = some (.cancelDownloadForUrl u) := by
        simp only [action, hu, Option.map_some]
      rw [hcancel]
      refine ⟨.inr ⟨_, [], rfl, ?_, rfl⟩, rfl⟩
      simp only [SpotifyCollectionViewCell.downloader_prepareForReuse_some hu]
      exact ImageDownlaoder.step_effect (F := F) (l := .cancelDownloadForUrl u) rfl
  | request url p =>
    obtain ⟨hs, rfl⟩ := Prod.mk.inj (Option.some.inj h)
    rw [← hs]
    exact ⟨.inr ⟨_, _, rfl, ImageDownlaoder.effect_downloadImage .., hout⟩, rfl⟩
  | handler task o =>
    obtain ⟨r, hr, h⟩ := Option.map_eq_some_iff.mp h
    obtain ⟨hs, rfl⟩ := Prod.mk.inj h
    rw [← hs]
    exact ⟨.inr ⟨_, _, rfl, ImageDownlaoder.step_effect hr, hout⟩, rfl⟩
  | main =>
    obtain ⟨r, hr, h⟩ := Option.map_eq_some_iff.mp h
    obtain ⟨hs, rfl⟩ := Prod.mk.inj h
    rw [← hs]
    exact ⟨.inr ⟨_, _, rfl, ImageDownlaoder.step_effect hr, hout⟩, rfl⟩

theorem action_handler {l : ViewLabel} {task : ℕ} {o : DownloadOutcome}
    (h : s.1.1.action l = some (.handler task o)) : l = .handler task o := by
  cases l with
  | handler =>
    cases h
    rfl
  | prepareForReuse cell =>
    obtain ⟨u, -, hu⟩ := Option.map_eq_some_iff.mp h
    cases hu
  | downloadImage | request | main => cases h

/-- The requests made in a step: none, or a new one. -/
def asks (s : Noted) (l : ViewLabel) : List ImageRequest := (s.1.1.action l).toList.flatMap asked

/-- The requests dropped in a step. -/
def drops (F : Foundation) (s : Noted) (l : ViewLabel) : List ImageRequest :=
  (s.1.1.action l).toList.flatMap (dropped F s.1.1.downloader)

theorem mem_drops {l : ViewLabel} {r : ImageRequest} : r ∈ drops F s l ↔
    (∃ u p, s.1.1.action l = some (.downloadImage (some u) r p) ∧
      s.1.1.downloader.cachedImages u = none ∧ F.url u ≠ none ∧
      s.1.1.downloader.imagesDownloadTasks u ≠ none) ∨
    ∃ task t, l = .handler task .noData ∧ s.1.1.downloader.tasks.find? task = some t ∧
      t.completionHandler = r := by
  unfold drops
  constructor
  · intro h
    cases ha : s.1.1.action l with
    | none =>
      rw [ha] at h
      cases h
    | some a =>
      simp only [ha, Option.toList_some, List.flatMap_cons, List.flatMap_nil, List.append_nil] at h
      unfold dropped at h
      split at h
      · split at h
        · obtain rfl := List.mem_singleton.mp h
          exact .inl ⟨_, _, rfl, ‹_›⟩
        · cases h
      · obtain ⟨t, ht, rfl⟩ := List.mem_map.mp h
        exact .inr ⟨_, t, action_handler ha, Option.mem_toList.mp ht, rfl⟩
      · cases h
  · rintro (⟨u, p, ha, hdrop⟩ | ⟨task, t, rfl, ht, rfl⟩)
    · simp [ha, dropped, hdrop]
    · simp [action, dropped, ht]

theorem requests_noted {l : ViewLabel} (h : noted F s l = some s') :
    s'.2.requests = s.2.requests ++ asks s l := by
  rw [(noted_inv h).1]
  rfl

theorem asks_cases (s : Noted) (l : ViewLabel) : asks s l = [] ∨
    ∃ r, asks s l = [r] ∧ r.id = s.1.1.nextRequest ∧
      (r.cell ≠ none → r.placeholderImage = some placeholderImage) := by
  unfold asks
  cases ha : s.1.1.action l with
  | none => exact .inl rfl
  | some a =>
    simp only [Option.toList_some, List.flatMap_cons, List.flatMap_nil, List.append_nil]
    exact (asked_action ha).2

theorem withdrawn_noted {l : ViewLabel} (h : noted F s l = some s') {r : ImageRequest}
    (hr : r ∈ s'.2.withdrawn) : r ∈ s.2.withdrawn ∨ r ∈ s.2.requests := by
  rw [(noted_inv h).1] at hr
  cases l with
  | prepareForReuse cell => exact (List.mem_append.mp hr).imp_right fun h => (List.mem_filter.mp h).1
  | downloadImage | request | handler | main => exact .inl hr

theorem subset_withdrawn_noted {l : ViewLabel} (h : noted F s l = some s') {r : ImageRequest}
    (hr : r ∈ s.2.withdrawn) : r ∈ s'.2.withdrawn := by
  rw [(noted_inv h).1]
  cases l with
  | prepareForReuse cell => exact List.mem_append_left _ hr
  | downloadImage | request | handler | main => exact hr

theorem ended_noted {l : ViewLabel} (h : noted F s l = some s') :
    ∃ more, s'.2.ended = s.2.ended ++ more := by
  rw [(noted_inv h).1]
  exact ⟨_, rfl⟩

theorem perm_noted {l : ViewLabel} (h : noted F s l = some s') :
    (places s.1.1.downloader s.1.2 ++ asks s l).Perm
      (places s'.1.1.downloader s'.1.2 ++ drops F s l) := by
  obtain ⟨-, hstep, -⟩ := noted_inv h
  unfold asks drops
  rcases hstep with ⟨ha, hd, hc⟩ | ⟨a, out, ha, he, hc⟩
  · rw [ha, hd, hc]
    exact List.Perm.refl _
  · simp only [ha, hc, Option.toList_some, List.flatMap_cons, List.flatMap_nil, List.append_nil]
    exact perm_places he

theorem stocked_noted {l : ViewLabel} (hs : Stocked s.1.1.downloader s.2.ended)
    (h : noted F s l = some s') : Stocked s'.1.1.downloader s'.2.ended := by
  obtain ⟨hnote, hstep, -⟩ := noted_inv h
  rcases hstep with ⟨ha, hd, -⟩ | ⟨a, out, ha, he, -⟩
  · simpa [hnote, note, ha, hd] using hs
  · simpa [hnote, note, ha] using hs.effect (asked_action ha).1 he

/-- A handler called or queued was so before, or is given a right answer, or data that is no picture. -/
theorem noted_call_cases {l : ViewLabel} (hs : Stocked s.1.1.downloader s.2.ended)
    (h : noted F s l = some s') {call : ImageCall ImageRequest}
    (hcall : call ∈ s'.1.2 ++ s'.1.1.downloader.mainQueue) :
    call ∈ s.1.2 ++ s.1.1.downloader.mainQueue ∨
      RightAnswer F s'.2.ended call.completionHandler call.image ∨
      ∃ task t, l = .handler task (.data none false) ∧
        s.1.1.downloader.tasks.find? task = some t ∧ call = ⟨t.completionHandler, none, false⟩ := by
  obtain ⟨hnote, hstep, -⟩ := noted_inv h
  rcases hstep with ⟨ha, hd, hc⟩ | ⟨a, out, ha, he, hc⟩
  · rw [hd, hc] at hcall
    exact .inl hcall
  · rw [hc] at hcall
    have hended : s'.2.ended = s.2.ended ++ endedBy s.1.1.downloader a := by simp [hnote, note, ha]
    rw [hended]
    refine (call_cases hs (asked_action ha).1 he hcall).imp_right fun hnew => hnew.imp_right ?_
    rintro ⟨task, t, rfl, ht, hcall⟩
    exact ⟨task, t, action_handler ha, ht, hcall⟩

theorem sound_start : Sound F start where
  nodup := List.nodup_nil
  mem_requests _ h := absurd h List.not_mem_nil
  lt _ h := absurd h List.not_mem_nil
  withdrawn _ h := absurd h List.not_mem_nil
  cell _ h := absurd h List.not_mem_nil
  stocked := ⟨fun _ _ h => (nomatch h), fun _ _ h => (nomatch h)⟩
  answers _ h := absurd h List.not_mem_nil

theorem Sound.not_mem_of_asks (hs : Sound F s) {l : ViewLabel} {r : ImageRequest} (hr : r ∈ asks s l) :
    r ∉ s.2.requests := by
  intro hold
  have hlt := hs.lt r hold
  rcases asks_cases s l with hno | ⟨r', hr', hid, -⟩
  · rw [hno] at hr
    cases hr
  · rw [hr'] at hr
    obtain rfl := List.mem_singleton.mp hr
    omega

/-- A request just made lives nowhere else. -/
theorem Sound.nodup_asks (hs : Sound F s) (l : ViewLabel) :
    (places s.1.1.downloader s.1.2 ++ asks s l).Nodup := by
  refine List.nodup_append.mpr ⟨hs.nodup, ?_, fun x hx y hy hxy => ?_⟩
  · rcases asks_cases s l with hno | ⟨r, hr, -⟩
    · rw [hno]
      exact List.nodup_nil
    · rw [hr]
      exact List.nodup_singleton r
  · exact hs.not_mem_of_asks (hxy ▸ hy) (hs.mem_requests x hx)

/-- A request dropped lives nowhere any more. -/
theorem Sound.not_mem_of_drops {l : ViewLabel} (hs : Sound F s) (h : noted F s l = some s')
    {r : ImageRequest} (hr : r ∈ drops F s l) : r ∉ places s'.1.1.downloader s'.1.2 := by
  have hnd := (perm_noted h).nodup_iff.mp (hs.nodup_asks l)
  exact fun hplace => (List.nodup_append.mp hnd).2.2 r hplace r hr rfl

theorem Sound.step {l : ViewLabel} (hs : Sound F s) (h : noted F s l = some s') : Sound F s' where
  nodup := ((List.nodup_append.mp ((perm_noted h).nodup_iff.mp (hs.nodup_asks l)))).1
  mem_requests r hr := by
    rw [requests_noted h]
    have hmem := (perm_noted h).mem_iff.mpr (List.mem_append_left _ hr)
    exact List.mem_append.mpr ((List.mem_append.mp hmem).imp_left (hs.mem_requests r))
  lt r hr := by
    rw [requests_noted h] at hr
    rw [(noted_inv h).2.2, ← asks.eq_1]
    rcases List.mem_append.mp hr with hr | hr
    · exact Nat.lt_of_lt_of_le (hs.lt r hr) (Nat.le_add_right _ _)
    · rcases asks_cases s l with hno | ⟨r', hr', hid, -⟩
      · rw [hno] at hr
        cases hr
      · rw [hr'] at hr ⊢
        obtain rfl := List.mem_singleton.mp hr
        rw [hid]
        exact Nat.lt_succ_self _
  withdrawn r hr := by
    rw [requests_noted h]
    exact List.mem_append_left _ ((withdrawn_noted h hr).elim (hs.withdrawn r) id)
  cell r hr := by
    rw [requests_noted h] at hr
    rcases List.mem_append.mp hr with hr | hr
    · exact hs.cell r hr
    · rcases asks_cases s l with hno | ⟨r', hr', -, hp⟩
      · rw [hno] at hr
        cases hr
      · rw [hr'] at hr
        obtain rfl := List.mem_singleton.mp hr
        exact hp
  stocked := stocked_noted hs.stocked h
  answers call hcall := by
    obtain ⟨more, hmore⟩ := ended_noted h
    rcases noted_call_cases hs.stocked h hcall with hold | hright | ⟨task, t, -, -, rfl⟩
    · rw [hmore]
      exact (hs.answers call hold).imp_right fun hr => hr.append more
    · exact .inr hright
    · exact .inl rfl

end ImageViews

end Spotify
