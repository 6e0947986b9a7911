import Spotify.Image.Downloader
import Spotify.Models

/-!
# Spotify.Image.Cell — `SpotifyCollectionViewCell` and its two subclasses

A cell asks the shared downloader for its picture and shows whatever its completion handler is given.
`populate` of a subclass writes the views that its model has values for and leaves the others as they are;
`prepareForReuse` resets the picture alone.  `own` is the completion handler that the cell passes on.
-/

namespace Spotify

/-- `UIImage(named: "placeholderImage")`, which is in the asset catalog. -/
def placeholderImage : UIImage := .named "placeholderImage"

structure SpotifyCollectionViewCell where
  nameLabel : Option String
  image : Option UIImage
  imageUrl : Option String
  deriving DecidableEq

namespace SpotifyCollectionViewCell

variable {κ : Type} (F : Foundation)

def init : SpotifyCollectionViewCell := ⟨none, none, none⟩

/-- The completion handler of `downloadImage`. -/
def setImage (image : Option UIImage) (cell : SpotifyCollectionViewCell) : SpotifyCollectionViewCell :=
  { cell with image := image }

/-- `downloadImage(url:)`, with the downloader's new state; an answer given at once reaches the cell. -/
def downloadImage (url : String) (own : κ) (cell : SpotifyCollectionViewCell) (d : ImageDownlaoder κ) :
    SpotifyCollectionViewCell × ImageDownlaoder κ :=
  let cell := { cell with imageUrl := some url, image := some placeholderImage }
  let r := d.downloadImage F (some url) own (some placeholderImage)
  (r.2.foldl (fun cell call => cell.setImage call.image) cell, r.1)

def prepareForReuse (cell : SpotifyCollectionViewCell) (d : ImageDownlaoder κ) :
    SpotifyCollectionViewCell × ImageDownlaoder κ :=
  let cell := { cell with image := none }
  match cell.imageUrl with
  | none => (cell, d)
  | some imageUrl => (cell, d.cancelDownloadForUrl imageUrl)

end SpotifyCollectionViewCell

/-! ### Artists -/

structure ArtistCollectionViewCell extends SpotifyCollectionViewCell where
  followersLabel : Option String
  starOneImage : Option UIImage
  starTwoImage : Option UIImage
  starThreeImage : Option UIImage
  starFourImage : Option UIImage
  starFiveImage : Option UIImage
  deriving DecidableEq

namespace ArtistCollectionViewCell

variable {κ : Type} (F : Foundation)

def init : ArtistCollectionViewCell := ⟨.init, none, none, none, none, none, none⟩

def setStars (one two three four five : UIImage) (cell : ArtistCollectionViewCell) :
    ArtistCollectionViewCell :=
  { cell with
    starOneImage := some one
    starTwoImage := some two
    starThreeImage := some three
    starFourImage := some four
    starFiveImage := some five }

/-! The three parts of `populate` after the name. -/

def populateFollowers (formattedNumberOfFollowers : Int → String) (followers : Option Followers)
    (cell : ArtistCollectionViewCell) : ArtistCollectionViewCell :=
  match followers with
  | none => cell
  | some followersNumber =>
    match followersNumber.total with
    | none => cell
    | some followers =>
      { cell with followersLabel := some (formattedNumberOfFollowers followers ++ " followers") }

def populateImage (own : κ) (images : Option (List ImageResponse)) (cell : ArtistCollectionViewCell)
    (d : ImageDownlaoder κ) : ArtistCollectionViewCell × ImageDownlaoder κ :=
  match images.bind List.head? with
  | none => ({ cell with image := some placeholderImage }, d)
  | some first =>
    match first.url with
    | none => (cell, d)
    | some url =>
      let r := cell.toSpotifyCollectionViewCell.downloadImage F url own d
      ({ cell with toSpotifyCollectionViewCell := r.1 }, r.2)

def populateStars (popularity : Option Int) (cell : ArtistCollectionViewCell) : ArtistCollectionViewCell :=
  let star : UIImage := .systemName "star"
  let fill : UIImage := .systemName "star.fill"
  match popularity with
  | none => cell
  | some popularity =>
    if popularity = 0 then cell.setStars star star star star star
    else if popularity ≤ 20 then cell.setStars fill star star star star
    else if popularity ≤ 40 then cell.setStars fill fill star star star
    else if popularity ≤ 60 then cell.setStars fill fill fill star star
    else if popularity ≤ 80 then cell.setStars fill fill fill fill star
    else if popularity > 81 then cell.setStars fill fill fill fill fill
    else cell

/-- `populate(model:)`; `formattedNumberOfFollowers` is that of `SpotifyNumberFormatter`, whose result
depends on the locale. -/
def populate (formattedNumberOfFollowers : Int → String) (own : κ) (model : Artist)
    (cell : ArtistCollectionViewCell) (d : ImageDownlaoder κ) :
    ArtistCollectionViewCell × ImageDownlaoder κ :=
  let cell := { cell with nameLabel := some model.name }
  let cell := cell.populateFollowers formattedNumberOfFollowers model.followers
  let r := cell.populateImage F own model.images d
  (r.1.populateStars model.popularity, r.2)

def prepareForReuse (cell : ArtistCollectionViewCell) (d : ImageDownlaoder κ) :
    ArtistCollectionViewCell × ImageDownlaoder κ :=
  let r := cell.toSpotifyCollectionViewCell.prepareForReuse d
  ({ cell with toSpotifyCollectionViewCell := r.1 }, r.2)

end ArtistCollectionViewCell

/-! ### Albums -/

structure ArtistAlbumCollectionViewCell extends SpotifyCollectionViewCell where
  albumName : Option String
  artistName : Option String
  dateReleased : Option String
  numberOfTracks : Option String
  numberOfArtists : Option String
  deriving DecidableEq

namespace ArtistAlbumCollectionViewCell

variable {κ : Type} (F : Foundation)

def init : ArtistAlbumCollectionViewCell := ⟨.init, none, none, none, none, none⟩

/-- `populate(model:)`; without a number of tracks it returns before the picture. -/
def populate (own : κ) (model : AlbumResponse) (cell : ArtistAlbumCollectionViewCell)
    (d : ImageDownlaoder κ) : ArtistAlbumCollectionViewCell × ImageDownlaoder κ :=
  let cell := { cell with
    albumName := model.name
    artistName := model.artists.head?.bind AlbumArtistDetail.name
    dateReleased := model.releaseDate
    numberOfArtists := some (toString model.artists.length ++ " Artists") }
  match model.totalTracks with
  | none => (cell, d)
  | some totalTracks =>
    let cell := { cell with numberOfTracks := some (toString totalTracks ++ " Tracks") }
    match (model.images.bind List.head?).bind ImageResponse.url with
    | none => (cell, d)
    | some url =>
      let r := cell.toSpotifyCollectionViewCell.downloadImage F url own d
      ({ cell with toSpotifyCollectionViewCell := r.1 }, r.2)

def prepareForReuse (cell : ArtistAlbumCollectionViewCell) (d : ImageDownlaoder κ) :
    ArtistAlbumCollectionViewCell × ImageDownlaoder κ :=
  let r := cell.toSpotifyCollectionViewCell.prepareForReuse d
  ({ cell with toSpotifyCollectionViewCell := r.1 }, r.2)

end ArtistAlbumCollectionViewCell

/-! ### The picture set at once -/

namespace SpotifyCollectionViewCell

variable {κ : Type} {F : Foundation} {cell : SpotifyCollectionViewCell} {d : ImageDownlaoder κ}

/-- Until a download completes the cell shows the cached picture of its URL, or the placeholder. -/
theorem image_downloadImage (url : String) (own : κ) :
    (cell.downloadImage F url own d).1.image = some ((d.cachedImages url).getD placeholderImage) := by
  unfold downloadImage ImageDownlaoder.downloadImage
  cases hc : d.cachedImages url with
  | some image => simp [hc, setImage]
  | none =>
    cases hurl : F.url url with
    | none => simp [hc, hurl, setImage]
    | some u =>
      cases ht : d.imagesDownloadTasks url with
      | none => simp [hc, hurl, ht]
      | some task => simp [hc, hurl, ht]

theorem nameLabel_downloadImage (url : String) (own : κ) :
    (cell.downloadImage F url own d).1.nameLabel = cell.nameLabel := by
  suffices h : ∀ (calls : List (ImageCall κ)) (cell : SpotifyCollectionViewCell),
      (calls.foldl (fun cell call => cell.setImage call.image) cell).nameLabel = cell.nameLabel from
    h _ { cell with imageUrl := some url, image := some placeholderImage }
  intro calls
  induction calls with
  | nil => exact fun _ => rfl
  | cons call calls ih => exact fun cell => ih (cell.setImage call.image)

theorem cachedImages_downloadImage (url : String) (own : κ) :
    (cell.downloadImage F url own d).2.cachedImages = d.cachedImages := by
  unfold downloadImage ImageDownlaoder.downloadImage
  cases hc : d.cachedImages url with
  | some image => simp [hc]
  | none =>
    cases hurl : F.url url with
    | none => simp [hc, hurl]
    | some u =>
      cases ht : d.imagesDownloadTasks url with
      | none => simp [hc, hurl, ht]
      | some task => simp [hc, hurl, ht]

theorem cachedImages_prepareForReuse :
    (cell.prepareForReuse d).2.cachedImages = d.cachedImages := by
  unfold prepareForReuse
  cases cell.imageUrl with
  | none => rfl
  | some imageUrl =>
    simp only [ImageDownlaoder.cancelDownloadForUrl]
    cases d.imagesDownloadTasks imageUrl with
    | none => rfl
    | some task => rfl

theorem downloader_prepareForReuse_none (h : cell.imageUrl = none) : (cell.prepareForReuse d).2 = d := by
  unfold prepareForReuse
  simp only [h]

theorem downloader_prepareForReuse_some {imageUrl : String} (h : cell.imageUrl = some imageUrl) :
    (cell.prepareForReuse d).2 = d.cancelDownloadForUrl imageUrl := by
  unfold prepareForReuse
  simp only [h]

theorem image_prepareForReuse : (cell.prepareForReuse d).1.image = none := by
  unfold prepareForReuse
  cases cell.imageUrl with
  | none => rfl
  | some imageUrl => rfl

end SpotifyCollectionViewCell

end Spotify
