import Spotify.Lib.Codec
import Spotify.Models

/-!
# Spotify.Codable — the `Codable` structures as records

The members that `JSONEncoder` writes and `JSONDecoder` reads, under the property names of the source.  A
property of an optional type may be missing or `null`; every other one must be there.  The fields of
`Record` make each structure come back as it was, as long as its numbers are `Int`s.
-/

namespace Spotify

open Record (required optional)
open Codec (string array dictionary object)

/-- `Int` -/
def int64 : Codec Int := Codec.int (-2 ^ 63) (2 ^ 63 - 1)

def AuthenticationResponse.record : Record AuthenticationResponse :=
  ((required "access_token" string).both ((required "expires_in" int64).both
    ((optional "refresh_token" string).both ((required "scope" string).both (required "token_type" string)
      (by decide)) (by decide)) (by decide)) (by decide)).map
    (fun (accessToken, expiresIn, refreshToken, scope, tokenType) =>
      ⟨accessToken, expiresIn, refreshToken, scope, tokenType⟩)
    (fun r => (r.accessToken, r.expiresIn, r.refreshToken, r.scope, r.tokenType)) fun _ => rfl

def ImageResponse.record : Record ImageResponse :=
  ((optional "url" string).both ((optional "height" int64).both (optional "width" int64)
    (by decide)) (by decide)).map
    (fun (url, height, width) => ⟨url, height, width⟩) (fun r => (r.url, r.height, r.width)) fun _ => rfl

def UserProfile.record : Record UserProfile :=
  ((optional "country" string).both ((required "display_name" string).both
    ((optional "external_urls" (dictionary string)).both ((required "id" string).both
      (required "images" (array (object ImageResponse.record))) (by decide)) (by decide)) (by decide))
    (by decide)).map
    (fun (country, displayName, externalUrls, id, images) => ⟨country, displayName, externalUrls, id, images⟩)
    (fun r => (r.country, r.displayName, r.externalUrls, r.id, r.images)) fun _ => rfl

def Followers.record : Record Followers :=
  (optional "total" int64).map (fun total => ⟨total⟩) Followers.total fun _ => rfl

def Artist.record : Record Artist :=
  ((optional "images" (array (object ImageResponse.record))).both ((required "name" string).both
    ((required "id" string).both ((optional "popularity" int64).both
      (optional "followers" (object Followers.record)) (by decide)) (by decide)) (by decide)) (by decide)).map
    (fun (images, name, id, popularity, followers) => ⟨images, name, id, popularity, followers⟩)
    (fun r => (r.images, r.name, r.id, r.popularity, r.followers)) fun _ => rfl

def ArtistsResponse.record : Record ArtistsResponse :=
  ((optional "href" string).both (required "items" (array (object Artist.record))) (by decide)).map
    (fun (href, items) => ⟨href, items⟩) (fun r => (r.href, r.items)) fun _ => rfl

def ArtistsSearchResponse.record : Record ArtistsSearchResponse :=
  (optional "artists" (object ArtistsResponse.record)).map (fun artists => ⟨artists⟩)
    ArtistsSearchResponse.artists fun _ => rfl

def AlbumArtistDetail.record : Record AlbumArtistDetail :=
  (optional "name" string).map (fun name => ⟨name⟩) AlbumArtistDetail.name fun _ => rfl

def AlbumResponse.record : Record AlbumResponse :=
  ((required "artists" (array (object AlbumArtistDetail.record))).both
    ((optional "images" (array (object ImageResponse.record))).both
      ((required "external_urls" (dictionary string)).both ((optional "name" string).both
        ((optional "total_tracks" int64).both (optional "release_date" string) (by decide)) (by decide))
        (by decide)) (by decide)) (by decide)).map
    (fun (artists, images, externalUrls, name, totalTracks, releaseDate) =>
      ⟨artists, images, externalUrls, name, totalTracks, releaseDate⟩)
    (fun r => (r.artists, r.images, r.externalUrls, r.name, r.totalTracks, r.releaseDate)) fun _ => rfl

def Album.record : Record Album :=
  (required "items" (array (object AlbumResponse.record))).map (fun items => ⟨items⟩) Album.items fun _ => rfl

end Spotify
