import Spotify.Image.Cell

/-!
# Spotify.Image.Populate — what a reused cell shows

A history of a cell is a list of `populate` and `prepareForReuse` calls from the new cell; no download
completes in it, so the cache stays as it is.  A view that `populate` assigns under a condition keeps what an
earlier model left when the condition fails: the followers without a total, the stars without a popularity
or at 81, the tracks without a number.  These are the only ways in which the past shows
(`shown_by_last_model_iff`).
-/

namespace Spotify

inductive CellOp (M : Type) where
  | populate (model : M)
  | prepareForReuse
  deriving DecidableEq

/-! ### Histories of a cell with its downloader -/

section History

variable {κ C M ω : Type} (populate : M → C → ImageDownlaoder κ → C × ImageDownlaoder κ)
  (prepareForReuse : C → ImageDownlaoder κ → C × ImageDownlaoder κ)

def applyOp (s : C × ImageDownlaoder κ) : CellOp M → C × ImageDownlaoder κ
  | .populate model => populate model s.1 s.2
  | .prepareForReuse => prepareForReuse s.1 s.2

/-- The cell and the downloader after the calls `ops`. -/
def history (s : C × ImageDownlaoder κ) (ops : List (CellOp M)) : C × ImageDownlaoder κ :=
  ops.foldl (applyOp populate prepareForReuse) s

/-- Whatever was called before, reuse and `populate(model)` lead to one display. -/
def ShownByLast (shown : C → ω) (new : C) (model : M) : Prop :=
  ∀ (d : ImageDownlaoder κ) (h1 h2 : List (CellOp M)),
    shown (history populate prepareForReuse (new, d) (h1 ++ [.prepareForReuse, .populate model])).1 =
      shown (history populate prepareForReuse (new, d) (h2 ++ [.prepareForReuse, .populate model])).1

variable {populate prepareForReuse}

theorem history_append (s : C × ImageDownlaoder κ) (h h' : List (CellOp M)) :
    history populate prepareForReuse s (h ++ h') =
      history populate prepareForReuse (history populate prepareForReuse s h) h' :=
  List.foldl_append

/-- What the calls keep, of the cell and of the cache, a history keeps. -/
theorem history_keeps {I : C → Prop}
    (hI : ∀ (op : CellOp M) s, I s.1 → I (applyOp populate prepareForReuse s op).1)
    (hc : ∀ (op : CellOp M) s,
      (applyOp populate prepareForReuse s op).2.cachedImages = s.2.cachedImages)
    {s : C × ImageDownlaoder κ} (h0 : I s.1) (ops : List (CellOp M)) :
    I (history populate prepareForReuse s ops).1 ∧
      (history populate prepareForReuse s ops).2.cachedImages = s.2.cachedImages := by
  induction ops generalizing s with
  | nil => exact ⟨h0, rfl⟩
  | cons op ops ih =>
    obtain ⟨h, hcache⟩ := ih (hI op s h0)
    exact ⟨h, hcache.trans (hc op s)⟩

/-- It is enough that the last two calls wipe out the cells they are made on. -/
theorem shownByLast_of {shown : C → ω} {new : C} {model : M} {I : C → Prop} (h0 : I new)
    (hI : ∀ (op : CellOp M) s, I s.1 → I (applyOp populate prepareForReuse s op).1)
    (hc : ∀ (op : CellOp M) s,
      (applyOp populate prepareForReuse s op).2.cachedImages = s.2.cachedImages)
    (hm : ∀ s s', I s.1 → I s'.1 → s.2.cachedImages = s'.2.cachedImages →
      shown (history populate prepareForReuse s [.prepareForReuse, .populate model]).1 =
        shown (history populate prepareForReuse s' [.prepareForReuse, .populate model]).1) :
    ShownByLast populate prepareForReuse shown new model := by
  intro d h1 h2
  rw [history_append, history_append]
  obtain ⟨hI1, hc1⟩ := history_keeps hI hc (s := (new, d)) h0 h1
  obtain ⟨hI2, hc2⟩ := history_keeps hI hc (s := (new, d)) h0 h2
  exact hm _ _ hI1 hI2 (hc1.trans hc2.symm)

end History

/-! ### Artists -/

namespace ArtistCollectionViewCell

variable {κ : Type} {F : Foundation} {formattedNumberOfFollowers : Int → String} {own : κ}
  {model : Artist} {cell cell' : ArtistCollectionViewCell} {d d' : ImageDownlaoder κ}

/-- All that is on display: the labels, the stars and the picture. -/
def shown (cell : ArtistCollectionViewCell) : ArtistCollectionViewCell := { cell with imageUrl := none }

/-- `populate` assigns the followers and the stars. -/
def Complete (model : Artist) : Prop :=
  model.followers.bind Followers.total ≠ none ∧ ∃ p, model.popularity = some p ∧ p ≠ 81

/-- The picture set at once on a cell without one. -/
def firstPicture (cachedImages : String → Option UIImage) (images : Option (List ImageResponse)) :
    Option UIImage :=
  match images.bind List.head? with
  | none => some placeholderImage
  | some first => first.url.map fun url => (cachedImages url).getD placeholderImage

theorem populateStars_81 : cell.populateStars (some 81) = cell := rfl

/-- Every popularity but 81 sets the five stars. -/
theorem populateStars_some {p : Int} (hp : p ≠ 81) :
    ∃ a b c d e, ∀ cell : ArtistCollectionViewCell,
      cell.populateStars (some p) = cell.setStars a b c d e := by
  unfold populateStars
  by_cases h0 : p = 0
  · exact ⟨_, _, _, _, _, fun cell => if_pos h0⟩
  by_cases h20 : p ≤ 20
  · exact ⟨_, _, _, _, _, fun cell => by simp only [if_neg h0, if_pos h20]; rfl⟩
  by_cases h40 : p ≤ 40
  · exact ⟨_, _, _, _, _, fun cell => by simp only [if_neg h0, if_neg h20, if_pos h40]; rfl⟩
  by_cases h60 : p ≤ 60
  · exact ⟨_, _, _, _, _, fun cell => by
      simp only [if_neg h0, if_neg h20, if_neg h40, if_pos h60]; rfl⟩
  by_cases h80 : p ≤ 80
  · exact ⟨_, _, _, _, _, fun cell => by
      simp only [if_neg h0, if_neg h20, if_neg h40, if_neg h60, if_pos h80]; rfl⟩
  have h81 : p > 81 := by omega
  exact ⟨_, _, _, _, _, fun cell => by
    simp only [if_neg h0, if_neg h20, if_neg h40, if_neg h60, if_neg h80, if_pos h81]; rfl⟩

theorem followersLabel_populateStars (popularity : Option Int) :
    (cell.populateStars popularity).followersLabel = cell.followersLabel := by
  cases popularity with
  | none => rfl
  | some p =>
    by_cases hp : p = 81
    · rw [hp, populateStars_81]
    · obtain ⟨a, b, c, d, e, h⟩ := populateStars_some hp
      rw [h]
      rfl

theorem shown_populateStars (popularity : Option Int) :
    (cell.populateStars popularity).shown = cell.shown.populateStars popularity := by
  cases popularity with
  | none => rfl
  | some p =>
    by_cases hp : p = 81
    · rw [hp, populateStars_81, populateStars_81]
    · obtain ⟨a, b, c, d, e, h⟩ := populateStars_some hp
      rw [h, h]
      rfl

theorem shown_populateImage {images : Option (List ImageResponse)} (hi : cell.image = none) :
    (cell.populateImage F own images d).1.shown =
      { cell with imageUrl := none, image := firstPicture d.cachedImages images } := by
  unfold populateImage firstPicture
  cases images.bind List.head? with
  | none => rfl
  | some first =>
    cases hurl : first.url with
    | none => simp only [hurl, shown, hi, Option.map_none]
    | some url =>
      simp only [hurl, shown, SpotifyCollectionViewCell.nameLabel_downloadImage,
        SpotifyCollectionViewCell.image_downloadImage, Option.map_some]

theorem populateFollowers_some {followers : Option Followers} {total : Int}
    (h : followers.bind Followers.total = some total) :
    cell.populateFollowers formattedNumberOfFollowers followers =
      { cell with followersLabel := some (formattedNumberOfFollowers total ++ " followers") } := by
  obtain ⟨followersNumber, rfl, htotal⟩ := Option.bind_eq_some_iff.mp h
  simp only [populateFollowers, htotal]

theorem populateFollowers_none {followers : Option Followers}
    (h : followers.bind Followers.total = none) :
    cell.populateFollowers formattedNumberOfFollowers followers = cell := by
  cases followers with
  | none => rfl
  | some followersNumber =>
    have htotal : followersNumber.total = none := h
    simp only [populateFollowers, htotal]

theorem starOneImage_populateFollowers (followers : Option Followers) :
    (cell.populateFollowers formattedNumberOfFollowers followers).starOneImage = cell.starOneImage := by
  cases hf : followers.bind Followers.total with
  | none => rw [populateFollowers_none hf]
  | some total => rw [populateFollowers_some hf]

/-- What `populate` shows on a cell without a picture. -/
theorem shown_populate (hi : cell.image = none) :
    (cell.populate F formattedNumberOfFollowers own model d).1.shown =
      ({ cell.populateFollowers formattedNumberOfFollowers model.followers with
        nameLabel := some model.name
        imageUrl := none
        image := firstPicture d.cachedImages model.images } :
        ArtistCollectionViewCell).populateStars model.popularity := by
  unfold populate
  rw [shown_populateStars]
  congr 1
  cases hf : model.followers.bind Followers.total with
  | none =>
    rw [populateFollowers_none hf, populateFollowers_none hf]
    exact shown_populateImage hi
  | some total =>
    rw [populateFollowers_some hf, populateFollowers_some hf]
    exact shown_populateImage hi

theorem cachedImages_populateImage {images : Option (List ImageResponse)} :
    (cell.populateImage F own images d).2.cachedImages = d.cachedImages := by
  unfold populateImage
  cases images.bind List.head? with
  | none => rfl
  | some first =>
    cases hurl : first.url with
    | none => simp only [hurl]
    | some url =>
      simp only [hurl]
      exact SpotifyCollectionViewCell.cachedImages_downloadImage url own

theorem cachedImages_applyOp (op : CellOp Artist) (s : ArtistCollectionViewCell × ImageDownlaoder κ) :
    (applyOp (populate F formattedNumberOfFollowers own) prepareForReuse s op).2.cachedImages =
      s.2.cachedImages := by
  cases op with
  | populate model => exact cachedImages_populateImage
  | prepareForReuse => exact SpotifyCollectionViewCell.cachedImages_prepareForReuse

/-- What reuse and `populate` show. -/
theorem shown_reused (s : ArtistCollectionViewCell × ImageDownlaoder κ) :
    (history (populate F formattedNumberOfFollowers own) prepareForReuse s
        [.prepareForReuse, .populate model]).1.shown =
      ({ s.1.populateFollowers formattedNumberOfFollowers model.followers with
        nameLabel := some model.name
        imageUrl := none
        image := firstPicture s.2.cachedImages model.images } :
        ArtistCollectionViewCell).populateStars model.popularity := by
  have hi : (s.1.prepareForReuse s.2).1.image = none := SpotifyCollectionViewCell.image_prepareForReuse
  refine (shown_populate hi).trans ?_
  rw [cachedImages_applyOp]
  cases hf : model.followers.bind Followers.total with
  | none => rw [populateFollowers_none hf, populateFollowers_none hf]; rfl
  | some total => rw [populateFollowers_some hf, populateFollowers_some hf]; rfl

/-- A model whose fields are all there. -/
def completeArtist : Artist := ⟨none, "", "", some 0, some ⟨some 0⟩⟩

/-- **Artists.**  The last model decides the display exactly when it is complete. -/
theorem shownByLast_iff : ShownByLast (populate F formattedNumberOfFollowers own) prepareForReuse shown
    init model ↔ Complete model := by
  constructor
  · intro h
    have hlast := h .launch [.populate completeArtist] []
    rw [history_append, history_append, shown_reused, shown_reused] at hlast
    refine ⟨fun hnone => ?_, ?_⟩
    · have hlabel := congrArg followersLabel hlast
      rw [populateFollowers_none hnone, populateFollowers_none hnone, followersLabel_populateStars,
        followersLabel_populateStars] at hlabel
      cases hlabel
    · by_contra hstars
      have hkeep : ∀ cell : ArtistCollectionViewCell, cell.populateStars model.popularity = cell := by
        cases hp : model.popularity with
        | none => exact fun _ => rfl
        | some p =>
          obtain rfl : p = 81 := by
            by_contra hp81
            exact hstars ⟨p, hp, hp81⟩
          exact fun _ => rfl
      have hstar := congrArg starOneImage hlast
      rw [hkeep, hkeep, starOneImage_populateFollowers, starOneImage_populateFollowers] at hstar
      cases hstar
  · rintro ⟨hfollowers, p, hp, hp81⟩
    obtain ⟨followers, hf⟩ := Option.ne_none_iff_exists'.mp hfollowers
    obtain ⟨one, two, three, four, five, hstars⟩ := populateStars_some hp81
    refine shownByLast_of (I := fun _ => True) trivial (fun _ _ _ => trivial) cachedImages_applyOp
      fun s s' _ _ hd => ?_
    rw [shown_reused, shown_reused, hp, hstars, hstars, hd, populateFollowers_some hf,
      populateFollowers_some hf]
    rfl

end ArtistCollectionViewCell

/-! ### Albums -/

namespace ArtistAlbumCollectionViewCell

variable {κ : Type} {F : Foundation} {own : κ} {model : AlbumResponse}
  {cell : ArtistAlbumCollectionViewCell} {d : ImageDownlaoder κ}

/-- All that is on display: the labels and the picture. -/
def shown (cell : ArtistAlbumCollectionViewCell) : ArtistAlbumCollectionViewCell :=
  { cell with imageUrl := none }

/-- What is on display when `populate` gets to its end, on a cell without a picture. -/
def allShown (cachedImages : String → Option UIImage) (model : AlbumResponse) (totalTracks : Int) :
    ArtistAlbumCollectionViewCell where
  nameLabel := none
  image := ((model.images.bind List.head?).bind ImageResponse.url).map fun url =>
    (cachedImages url).getD placeholderImage
  imageUrl := none
  albumName := model.name
  artistName := model.artists.head?.bind AlbumArtistDetail.name
  dateReleased := model.releaseDate
  numberOfTracks := some (toString totalTracks ++ " Tracks")
  numberOfArtists := some (toString model.artists.length ++ " Artists")

theorem shown_populate {totalTracks : Int} (ht : model.totalTracks = some totalTracks)
    (hi : cell.image = none) (hn : cell.nameLabel = none) :
    (cell.populate F own model d).1.shown = allShown d.cachedImages model totalTracks := by
  unfold populate allShown
  simp only [ht]
  cases (model.images.bind List.head?).bind ImageResponse.url with
  | none => simp only [shown, hi, hn, Option.map_none]
  | some url =>
    simp only [shown, SpotifyCollectionViewCell.nameLabel_downloadImage, hn,
      SpotifyCollectionViewCell.image_downloadImage, Option.map_some]

theorem numberOfTracks_populate (ht : model.totalTracks = none) :
    (cell.populate F own model d).1.numberOfTracks = cell.numberOfTracks := by
  unfold populate
  simp only [ht]

theorem nameLabel_populate : (cell.populate F own model d).1.nameLabel = cell.nameLabel := by
  unfold populate
  cases model.totalTracks with
  | none => rfl
  | some totalTracks =>
    cases (model.images.bind List.head?).bind ImageResponse.url with
    | none => rfl
    | some url => exact SpotifyCollectionViewCell.nameLabel_downloadImage url own

/-- No call writes the label of the base class. -/
theorem nameLabel_applyOp (op : CellOp AlbumResponse)
    (s : ArtistAlbumCollectionViewCell × ImageDownlaoder κ) :
    (applyOp (populate F own) prepareForReuse s op).1.nameLabel = s.1.nameLabel := by
  cases op with
  | populate model => exact nameLabel_populate
  | prepareForReuse =>
    unfold applyOp prepareForReuse SpotifyCollectionViewCell.prepareForReuse
    cases s.1.imageUrl <;> rfl

theorem cachedImages_populate : (cell.populate F own model d).2.cachedImages = d.cachedImages := by
  unfold populate
  cases model.totalTracks with
  | none => rfl
  | some totalTracks =>
    cases (model.images.bind List.head?).bind ImageResponse.url with
    | none => rfl
    | some url => simp only [SpotifyCollectionViewCell.cachedImages_downloadImage]

theorem cachedImages_applyOp (op : CellOp AlbumResponse)
    (s : ArtistAlbumCollectionViewCell × ImageDownlaoder κ) :
    (applyOp (populate F own) prepareForReuse s op).2.cachedImages = s.2.cachedImages := by
  cases op with
  | populate model => exact cachedImages_populate
  | prepareForReuse => exact SpotifyCollectionViewCell.cachedImages_prepareForReuse

/-- **Albums.**  The last model decides the display exactly when it has a number of tracks. -/
theorem shownByLast_iff : ShownByLast (populate F own) prepareForReuse shown init model ↔
    model.totalTracks ≠ none := by
  constructor
  · intro h hnone
    have hlast := h .launch [.populate ⟨[], none, [], none, some 0, none⟩] []
    rw [history_append, history_append] at hlast
    have htracks : ∀ s : ArtistAlbumCollectionViewCell × ImageDownlaoder κ,
        (history (populate F own) prepareForReuse s
          [.prepareForReuse, .populate model]).1.shown.numberOfTracks = s.1.numberOfTracks :=
      fun s => numberOfTracks_populate hnone
    have hlast := congrArg numberOfTracks hlast
    rw [htracks, htracks] at hlast
    cases hlast
  · intro hm
    obtain ⟨totalTracks, ht⟩ := Option.ne_none_iff_exists'.mp hm
    refine shownByLast_of (I := fun cell => cell.nameLabel = none) rfl
      (fun op s h => (nameLabel_applyOp op s).trans h) cachedImages_applyOp fun s s' hn hn' hd => ?_
    have hwipe : ∀ s : ArtistAlbumCollectionViewCell × ImageDownlaoder κ, s.1.nameLabel = none →
        (history (populate F own) prepareForReuse s [.prepareForReuse, .populate model]).1.shown =
          allShown s.2.cachedImages model totalTracks := by
      intro s hn
      have hn' : (applyOp (populate F own) prepareForReuse s .prepareForReuse).1.nameLabel = none :=
        (nameLabel_applyOp .prepareForReuse s).trans hn
      refine (shown_populate ht SpotifyCollectionViewCell.image_prepareForReuse hn').trans ?_
      rw [cachedImages_applyOp]
    rw [hwipe s hn, hwipe s' hn', hd]

end ArtistAlbumCollectionViewCell

/-! ### Both -/

namespace SpotifyCollectionViewCell

/-- For every history of either cell: the display depends only on the model given last, exactly when that
model makes `populate` assign every view. -/
theorem shown_by_last_model_iff {κ : Type} (F : Foundation) (formattedNumberOfFollowers : Int → String)
    (own : κ) :
    (∀ model : Artist,
      ShownByLast (ArtistCollectionViewCell.populate F formattedNumberOfFollowers own)
        ArtistCollectionViewCell.prepareForReuse ArtistCollectionViewCell.shown
        ArtistCollectionViewCell.init model ↔ ArtistCollectionViewCell.Complete model) ∧
    ∀ model : AlbumResponse,
      ShownByLast (ArtistAlbumCollectionViewCell.populate F own)
        ArtistAlbumCollectionViewCell.prepareForReuse ArtistAlbumCollectionViewCell.shown
        ArtistAlbumCollectionViewCell.init model ↔ model.totalTracks ≠ none :=
  ⟨fun _ => ArtistCollectionViewCell.shownByLast_iff, fun _ => ArtistAlbumCollectionViewCell.shownByLast_iff⟩

/-- Popularity 81: the five stars of the artist before stay (one of them is filled here). -/
theorem stars_of_another_artist :
    let model : Artist := ⟨none, "B", "2", some 81, some ⟨some 7⟩⟩
    ¬ ShownByLast (ArtistCollectionViewCell.populate .ascii toString ())
      ArtistCollectionViewCell.prepareForReuse ArtistCollectionViewCell.shown
      ArtistCollectionViewCell.init model := by
  intro model h
  have hlast := h .launch [.populate ⟨none, "A", "1", some 10, some ⟨some 5⟩⟩]
    [.populate ⟨none, "A", "1", some 90, some ⟨some 5⟩⟩]
  have hstar := congrArg ArtistCollectionViewCell.starTwoImage hlast
  revert hstar
  decide

end SpotifyCollectionViewCell

end Spotify
