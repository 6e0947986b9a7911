import Mathlib.Init

/-!
# Spotify.Models — the decoded bodies of the two servers

The `Codable` structures that the modelled functions read, under their source names.  Encoding a
`UserProfile` to JSON and decoding it again gives it back, so the saved record is kept as a value.
-/

namespace Spotify

structure AuthenticationResponse where
  accessToken : String
  expiresIn : Int
  refreshToken : Option String
  scope : String
  tokenType : String
  deriving DecidableEq

structure ImageResponse where
  url : Option String
  height : Option Int
  width : Option Int
  deriving DecidableEq

structure UserProfile where
  country : Option String
  displayName : String
  externalUrls : Option (List (String × String))
  id : String
  images : List ImageResponse
  deriving DecidableEq

/-- The view models' extract of a `UserProfile`. -/
structure SignedinUserProfile where
  image : Option String
  username : String
  id : String
  deriving DecidableEq

structure Followers where
  total : Option Int
  deriving DecidableEq

structure Artist where
  images : Option (List ImageResponse)
  name : String
  id : String
  popularity : Option Int
  followers : Option Followers
  deriving DecidableEq

structure ArtistsResponse where
  href : Option String
  items : List Artist
  deriving DecidableEq

structure ArtistsSearchResponse where
  artists : Option ArtistsResponse
  deriving DecidableEq

structure AlbumArtistDetail where
  name : Option String
  deriving DecidableEq

structure AlbumResponse where
  artists : List AlbumArtistDetail
  images : Option (List ImageResponse)
  externalUrls : List (String × String)
  name : Option String
  totalTracks : Option Int
  releaseDate : Option String
  deriving DecidableEq

structure Album where
  items : List AlbumResponse
  deriving DecidableEq

end Spotify
