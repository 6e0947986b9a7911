import Spotify.Foundation
import Spotify.Lib.Pool
import Spotify.Lib.Runs
import Mathlib.Logic.Function.Basic

/-!
# Spotify.Image.Downloader — `ImageDownlaoder`

The cache, the table of download tasks and the steps of the shared object: a call of one of its functions,
the handler of a data task, a block of the main queue.  `tasks` holds the downloads whose handler has not
run, cancelled ones included; the table names them by their identifier there.  `κ` stands for the
completion handlers.
-/

namespace Spotify

inductive UIImage where
  | named (name : String)
  | systemName (name : String)
  /-- `UIImage(data:)` -/
  | decoded (data : Data)
  deriving DecidableEq

/-- What the handler of a download is given. -/
inductive DownloadOutcome where
  | noData
  /-- data, with what `UIImage(data:)` makes of it, and whether there is an error as well -/
  | data (image : Option UIImage) (error : Bool)
  deriving DecidableEq

section Types

variable (κ : Type)

/-- A download task, with what its handler captures. -/
structure Download where
  urlString : String
  url : URL
  completionHandler : κ
  placeholderImage : Option UIImage
  cancelled : Bool
  deriving DecidableEq

/-- A completion handler being called. -/
structure ImageCall where
  completionHandler : κ
  image : Option UIImage
  success : Bool
  deriving DecidableEq

structure ImageDownlaoder where
  cachedImages : String → Option UIImage
  imagesDownloadTasks : String → Option ℕ
  tasks : Pool (Download κ)
  mainQueue : List (ImageCall κ)

inductive ImageLabel where
  | downloadImage (url : Option String) (completionHandler : κ) (placeholderImage : Option UIImage)
  | cancelDownloadForUrl (url : String)
  /-- the handler of a task runs -/
  | handler (task : ℕ) (outcome : DownloadOutcome)
  /-- the main thread runs the first block of its queue -/
  | main
  deriving DecidableEq

end Types

variable {κ : Type}

def Download.cancel (d : Download κ) : Download κ := { d with cancelled := true }

namespace ImageDownlaoder

variable (F : Foundation)

def launch : ImageDownlaoder κ := ⟨fun _ => none, fun _ => none, Pool.empty, []⟩

def downloadImage (url : Option String) (completionHandler : κ) (placeholderImage : Option UIImage)
    (s : ImageDownlaoder κ) : ImageDownlaoder κ × List (ImageCall κ) :=
  match url with
  | none => (s, [⟨completionHandler, placeholderImage, true⟩])
  | some urlString =>
    match s.cachedImages urlString with
    | some image => (s, [⟨completionHandler, some image, true⟩])
    | none =>
      match F.url urlString with
      | none => (s, [⟨completionHandler, placeholderImage, true⟩])
      | some url =>
        match s.imagesDownloadTasks urlString with
        | some _ => (s, [])
        | none =>
          ({ s with
            tasks := s.tasks.start ⟨urlString, url, completionHandler, placeholderImage, false⟩
            imagesDownloadTasks :=
              Function.update s.imagesDownloadTasks urlString (some s.tasks.next) }, [])

/-- The handler of a download task: the entry of the table goes only on the last branch. -/
def handler (d : Download κ) (s : ImageDownlaoder κ) : DownloadOutcome → ImageDownlaoder κ
  | .noData => s
  | .data _ true =>
    { s with mainQueue := s.mainQueue ++ [⟨d.completionHandler, d.placeholderImage, true⟩] }
  | .data image false =>
    { s with
      cachedImages := Function.update s.cachedImages d.urlString image
      imagesDownloadTasks := Function.update s.imagesDownloadTasks d.urlString none
      mainQueue := s.mainQueue ++ [⟨d.completionHandler, image, false⟩] }

def cancelDownloadForUrl (url : String) (s : ImageDownlaoder κ) : ImageDownlaoder κ :=
  match s.imagesDownloadTasks url with
  | none => s
  | some dataTask =>
    { s with
      tasks := s.tasks.update dataTask Download.cancel
      imagesDownloadTasks := Function.update s.imagesDownloadTasks url none }

/-- One step, with the completion handlers it calls.  The handler of a cancelled task runs too, and may
have been given data. -/
def step (s : ImageDownlaoder κ) : ImageLabel κ → Option (ImageDownlaoder κ × List (ImageCall κ))
  | .downloadImage url completionHandler placeholderImage =>
    some (s.downloadImage F url completionHandler placeholderImage)
  | .cancelDownloadForUrl url => some (s.cancelDownloadForUrl url, [])
  | .handler task outcome =>
    (s.tasks.find? task).map fun d =>
      (({ s with tasks := s.tasks.finish task } : ImageDownlaoder κ).handler d outcome, [])
  | .main =>
    match s.mainQueue with
    | [] => none
    | call :: queue => some ({ s with mainQueue := queue }, [call])

/-- The steps without the calls. -/
def next : ImageDownlaoder κ → ImageLabel κ → Option (ImageDownlaoder κ) := Runs.silent (step F)

/-! ### What a step can do -/

/-- The effects of a step on state and calls. -/
inductive Effect (F : Foundation) (s : ImageDownlaoder κ) :
    ImageLabel κ → ImageDownlaoder κ → List (ImageCall κ) → Prop
  | noURL (c : κ) (p : Option UIImage) (url : Option String)
      (hurl : ∀ u, url = some u → s.cachedImages u = none ∧ F.url u = none) :
      Effect F s (.downloadImage url c p) s [⟨c, p, true⟩]
  | cached (c : κ) (p : Option UIImage) (u : String) (image : UIImage)
      (hc : s.cachedImages u = some image) :
      Effect F s (.downloadImage (some u) c p) s [⟨c, some image, true⟩]
  | outstanding (c : κ) (p : Option UIImage) (u : String) (url : URL) (task : ℕ)
      (hc : s.cachedImages u = none) (hurl : F.url u = some url)
      (ht : s.imagesDownloadTasks u = some task) :
      Effect F s (.downloadImage (some u) c p) s []
  | started (c : κ) (p : Option UIImage) (u : String) (url : URL) (hc : s.cachedImages u = none)
      (hurl : F.url u = some url) (ht : s.imagesDownloadTasks u = none) :
      Effect F s (.downloadImage (some u) c p)
        { s with tasks := s.tasks.start ⟨u, url, c, p, false⟩
                 imagesDownloadTasks :=
                   Function.update s.imagesDownloadTasks u (some s.tasks.next) } []
  | notCancelled (u : String) (ht : s.imagesDownloadTasks u = none) :
      Effect F s (.cancelDownloadForUrl u) s []
  | cancelled (u : String) (task : ℕ) (ht : s.imagesDownloadTasks u = some task) :
      Effect F s (.cancelDownloadForUrl u)
        { s with tasks := s.tasks.update task Download.cancel
                 imagesDownloadTasks := Function.update s.imagesDownloadTasks u none } []
  | failed (task : ℕ) (d : Download κ) (hd : s.tasks.find? task = some d) :
      Effect F s (.handler task .noData) { s with tasks := s.tasks.finish task } []
  | failedWithData (task : ℕ) (d : Download κ) (image : Option UIImage)
      (hd : s.tasks.find? task = some d) :
      Effect F s (.handler task (.data image true))
        { s with tasks := s.tasks.finish task
                 mainQueue := s.mainQueue ++ [⟨d.completionHandler, d.placeholderImage, true⟩] } []
  | fetched (task : ℕ) (d : Download κ) (image : Option UIImage) (hd : s.tasks.find? task = some d) :
      Effect F s (.handler task (.data image false))
        { s with tasks := s.tasks.finish task
                 cachedImages := Function.update s.cachedImages d.urlString image
                 imagesDownloadTasks := Function.update s.imagesDownloadTasks d.urlString none
                 mainQueue := s.mainQueue ++ [⟨d.completionHandler, image, false⟩] } []
  | delivered (call : ImageCall κ) (queue : List (ImageCall κ)) (hq : s.mainQueue = call :: queue) :
      Effect F s .main { s with mainQueue := queue } [call]

variable {F} {s s' : ImageDownlaoder κ}

theorem effect_downloadImage (url : Option String) (c : κ) (p : Option UIImage) :
    Effect F s (.downloadImage url c p) (s.downloadImage F url c p).1 (s.downloadImage F url c p).2 := by
  cases url with
  | none => exact .noURL c p none fun _ h => by cases h
  | some u =>
    cases hc : s.cachedImages u with
    | some image =>
      simp only [downloadImage, hc]
      exact .cached c p u image hc
    | none =>
      cases hurl : F.url u with
      | none =>
        simp only [downloadImage, hc, hurl]
        exact .noURL c p (some u) fun _ h => by cases h; exact ⟨hc, hurl⟩
      | some url =>
        cases ht : s.imagesDownloadTasks u with
        | some task =>
          simp only [downloadImage, hc, hurl, ht]
          exact .outstanding c p u url task hc hurl ht
        | none =>
          simp only [downloadImage, hc, hurl, ht]
          exact .started c p u url hc hurl ht

theorem effect_handler {task : ℕ} {d : Download κ} (hd : s.tasks.find? task = some d)
    (o : DownloadOutcome) : Effect F s (.handler task o)
      (({ s with tasks := s.tasks.finish task } : ImageDownlaoder κ).handler d o) [] := by
  cases o with
  | noData => exact .failed task d hd
  | data image error =>
    cases error with
    | true => exact .failedWithData task d image hd
    | false => exact .fetched task d image hd

/-- **What a step can do.** -/
theorem step_effect {l : ImageLabel κ} {out : List (ImageCall κ)} (h : s.step F l = some (s', out)) :
    Effect F s l s' out := by
  cases l with
  | downloadImage url c p =>
    have he := effect_downloadImage (F := F) (s := s) url c p
    rw [Option.some.inj h] at he
    exact he
  | cancelDownloadForUrl u =>
    cases h
    unfold cancelDownloadForUrl
    cases ht : s.imagesDownloadTasks u with
    | none => exact .notCancelled u ht
    | some task => exact .cancelled u task ht
  | handler task o =>
    obtain ⟨d, hd, h⟩ := Option.map_eq_some_iff.mp h
    cases h
    exact effect_handler hd o
  | main =>
    simp only [step] at h
    split at h
    · cases h
    · cases h
      exact .delivered _ _ ‹_›

theorem next_effect {l : ImageLabel κ} (h : next F s l = some s') : ∃ out, Effect F s l s' out := by
  obtain ⟨out, h⟩ := Runs.silent_eq_some.mp h
  exact ⟨out, step_effect h⟩

end ImageDownlaoder

end Spotify
