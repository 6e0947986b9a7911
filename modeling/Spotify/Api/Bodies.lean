import Spotify.Api.Client
import Spotify.Codable

/-!
# Spotify.Api.Bodies — what the handlers make of the bodies

The client was modelled with the decoded bodies; here are the bodies.  `parse` reads a text as JSON and `text`
a body as UTF-8.  Every body gives an answer that the client accepts, and every payload comes from some body
(`bodies_accepted`).  A list decodes when each of its elements does; so one artist without a name empties a
search of all others, while a body that says nothing of artists, such as the server's description of an error,
counts as a search without result.
-/

namespace Spotify

open Codec (object)

namespace Endpoint

/-- The type that the handler decodes. -/
def decode (body : JSON) : Endpoint → Option Payload
  | .getUserProfile => ((object UserProfile.record).decode body).map .userProfile
  | .getartistProfile _ => ((object ArtistsSearchResponse.record).decode body).map .artists
  | .getArtistAlbum _ => ((object Album.record).decode body).map .album

variable (parse : Data → Option JSON) (text : Data → Option String)

/-- How a data task ends, from the arguments of its handler. -/
def outcome (e : Endpoint) (data : Option Data) (error : Bool) : Outcome Payload :=
  match data, error with
  | some data, false =>
    match (parse data).bind fun body => e.decode body with
    | some result => .decoded result
    | none => .undecodable (text data)
  | _, _ => .networkError

end Endpoint

/-- The body that the payload is written to. -/
def Payload.encode : Payload → JSON
  | .userProfile result => (object UserProfile.record).encode result
  | .artists result => (object ArtistsSearchResponse.record).encode result
  | .album result => (object Album.record).encode result

/-- The numbers of the payload are `Int`s. -/
def Payload.Fits : Payload → Prop
  | .userProfile result => UserProfile.record.Fits result
  | .artists result => ArtistsSearchResponse.record.Fits result
  | .album result => Album.record.Fits result

/-- The result that the completion of a search gets. -/
def artistsResult : Except APIError Payload → Option (Except APIError ArtistsSearchResponse)
  | .error error => some (.error error)
  | .ok (.artists result) => some (.ok result)
  | .ok _ => none

/-- The result that the completion of an album call gets. -/
def albumResult : Except APIError Payload → Option (Except APIError Album)
  | .error error => some (.error error)
  | .ok (.album result) => some (.ok result)
  | .ok _ => none

/-- The decoder of a search gives its completion what it takes. -/
theorem artistsResult_isSome {text : String} {o : Outcome Payload}
    (h : (Endpoint.getartistProfile text).accepts o = true) :
    ∃ result, artistsResult ((Endpoint.getartistProfile text).handler o) = some result := by
  cases o with
  | networkError => exact ⟨_, rfl⟩
  | undecodable text => cases text <;> exact ⟨_, rfl⟩
  | decoded result =>
    cases result with
    | userProfile result => cases h
    | artists result => exact ⟨_, rfl⟩
    | album result => cases h

namespace Endpoint

variable {parse : Data → Option JSON} {text : Data → Option String}

theorem accepts_decode {e : Endpoint} {body : JSON} {result : Payload} (h : e.decode body = some result) :
    e.accepts (.decoded result) = true := by
  cases e with
  | getUserProfile | getartistProfile | getArtistAlbum =>
    obtain ⟨r, -, rfl⟩ := Option.map_eq_some_iff.mp h
    rfl

theorem decode_encode {e : Endpoint} {result : Payload} (h : e.accepts (.decoded result) = true)
    (hfits : result.Fits) : e.decode result.encode = some result := by
  cases e with
  | getUserProfile =>
    cases result with
    | userProfile result =>
      exact congrArg (Option.map Payload.userProfile) ((object UserProfile.record).decode_encode result hfits)
    | artists | album => cases h
  | getartistProfile artist =>
    cases result with
    | artists result =>
      exact congrArg (Option.map Payload.artists)
        ((object ArtistsSearchResponse.record).decode_encode result hfits)
    | userProfile | album => cases h
  | getArtistAlbum id =>
    cases result with
    | album result =>
      exact congrArg (Option.map Payload.album) ((object Album.record).decode_encode result hfits)
    | userProfile | artists => cases h

/-- The keys that the handler reads. -/
def keys : Endpoint → List String
  | .getUserProfile => UserProfile.record.keys
  | .getartistProfile _ => ArtistsSearchResponse.record.keys
  | .getArtistAlbum _ => Album.record.keys

theorem decode_congr {e : Endpoint} {m m' : List (String × JSON)}
    (h : ∀ k ∈ e.keys, m.lookup k = m'.lookup k) : e.decode (.object m) = e.decode (.object m') := by
  cases e with
  | getUserProfile => exact congrArg (Option.map Payload.userProfile) (UserProfile.record.decode_congr m m' h)
  | getartistProfile artist =>
    exact congrArg (Option.map Payload.artists) (ArtistsSearchResponse.record.decode_congr m m' h)
  | getArtistAlbum id => exact congrArg (Option.map Payload.album) (Album.record.decode_congr m m' h)

theorem decode_search_missing (artist : String) {m : List (String × JSON)}
    (h : m.lookup "artists" = none ∨ m.lookup "artists" = some .null) :
    (getartistProfile artist).decode (.object m) = some (.artists ⟨none⟩) := by
  have hdecode : ArtistsSearchResponse.record.decode m = some ⟨none⟩ :=
    congrArg (Option.map _) (Record.decode_optional_missing h)
  exact congrArg (Option.map _) hdecode

/-- A search decodes when each of its artists does. -/
theorem decode_search (artist : String) {m a : List (String × JSON)} {items : List JSON} {href : Option String}
    (hm : m.lookup "artists" = some (.object a)) (ha : a.lookup "items" = some (.array items))
    (hhref : (Record.optional "href" Codec.string).decode a = some href) :
    (getartistProfile artist).decode (.object m) =
      (items.mapM (object Artist.record).decode).map fun found => .artists ⟨some ⟨href, found⟩⟩ := by
  have hresponse : ArtistsResponse.record.decode a =
      (items.mapM (object Artist.record).decode).map fun found => ⟨href, found⟩ := by
    have hitems : (Record.required "items" (Codec.array (object Artist.record))).decode a =
        items.mapM (object Artist.record).decode := Record.decode_required ha
    show Option.map _ (Option.bind ((Record.optional "href" Codec.string).decode a) _) = _
    rw [hhref, Option.bind_some, hitems, Option.map_map]
    rfl
  have hdecode : ArtistsSearchResponse.record.decode m =
      (items.mapM (object Artist.record).decode).map fun found => ⟨some ⟨href, found⟩⟩ := by
    show Option.map _ ((Record.optional "artists" (object ArtistsResponse.record)).decode m) = _
    rw [Record.decode_optional hm (by exact fun h => by cases h)]
    show Option.map _ (Option.map some (ArtistsResponse.record.decode a)) = _
    rw [hresponse, Option.map_map, Option.map_map]
    rfl
  show Option.map _ (ArtistsSearchResponse.record.decode m) = _
  rw [hdecode, Option.map_map]
  rfl

theorem outcome_of_parse {e : Endpoint} {data : Data} {body : JSON} (h : parse data = some body) :
    e.outcome parse text (some data) false = match e.decode body with
      | some result => .decoded result
      | none => .undecodable (text data) := by
  rw [outcome, h, Option.bind_some]

theorem outcome_accepted (e : Endpoint) (data : Option Data) (error : Bool) :
    e.accepts (e.outcome parse text data error) = true := by
  unfold outcome
  split
  · split
    · rename_i h
      obtain ⟨body, -, h⟩ := Option.bind_eq_some_iff.mp h
      exact accepts_decode h
    · cases e <;> rfl
  · cases e <;> rfl

/-- **The client takes every body, and every payload has one.**  Whatever the arguments of a handler, it gives
an answer that the client's step accepts; and each payload that the step accepts is what the handler makes of
any body with the members that encode it, in any order and among any others. -/
theorem bodies_accepted (parse : Data → Option JSON) (text : Data → Option String) (e : Endpoint) :
    (∀ data error, e.accepts (e.outcome parse text data error) = true) ∧
    ∀ result, e.accepts (.decoded result) = true → result.Fits →
      ∃ members, result.encode = .object members ∧
        ∀ data m, parse data = some (.object m) → (∀ k ∈ e.keys, m.lookup k = members.lookup k) →
          e.outcome parse text (some data) false = .decoded result := by
  refine ⟨outcome_accepted e, fun result hresult hfits => ?_⟩
  obtain ⟨members, hmembers⟩ : ∃ members, result.encode = .object members := by
    cases result <;> exact ⟨_, rfl⟩
  refine ⟨members, hmembers, fun data m hparse hm => ?_⟩
  have hdecode : e.decode (.object m) = some result := by
    rw [decode_congr hm, ← hmembers, decode_encode hresult hfits]
  rw [outcome_of_parse hparse, hdecode]

/-- Albums without any: the list stands among other members. -/
theorem noAlbums_accepted : (getArtistAlbum "7").outcome
    (fun _ => some (.object [("href", .null), ("items", .array []), ("total", .number 0)])) (fun _ => none)
    (some []) false = .decoded (.album ⟨[]⟩) := by
  obtain ⟨members, hmembers, hbodies⟩ := (bodies_accepted
    (fun _ => some (.object [("href", .null), ("items", .array []), ("total", .number 0)])) (fun _ => none)
    (getArtistAlbum "7")).2 (.album ⟨[]⟩) rfl (fun _ h => absurd h List.not_mem_nil)
  cases hmembers
  refine hbodies [] _ rfl fun k hk => ?_
  obtain rfl := List.mem_singleton.mp hk
  rfl

/-- **A body that describes an error.**  An object without the members that the three answers are about is a
failure for the profile, with the body as its message, and for the albums; for a search it is a success
that brings no artists. -/
theorem error_body_answers (parse : Data → Option JSON) (text : Data → Option String) (data : Data)
    (m : List (String × JSON)) (hparse : parse data = some (.object m))
    (hprofile : m.lookup "display_name" = none) (hartists : m.lookup "artists" = none)
    (halbum : m.lookup "items" = none) (artist id : String) :
    getUserProfile.handler (getUserProfile.outcome parse text (some data) false) =
      .error ((text data).elim .decoding .custom) ∧
    (getartistProfile artist).handler ((getartistProfile artist).outcome parse text (some data) false) =
      .ok (.artists ⟨none⟩) ∧
    (getArtistAlbum id).handler ((getArtistAlbum id).outcome parse text (some data) false) =
      .error .decoding := by
  have hprofile' : UserProfile.record.decode m = none :=
    Record.decode_map_eq_none (Record.decode_both_eq_none (.inr (Record.decode_both_eq_none (.inl
      (Record.decode_required_missing hprofile)))))
  have halbum' : Album.record.decode m = none :=
    Record.decode_map_eq_none (Record.decode_required_missing halbum)
  have hdecode : getUserProfile.decode (.object m) = none ∧
      (getartistProfile artist).decode (.object m) = some (.artists ⟨none⟩) ∧
      (getArtistAlbum id).decode (.object m) = none :=
    ⟨congrArg (Option.map _) hprofile', decode_search_missing artist (.inl hartists),
      congrArg (Option.map _) halbum'⟩
  obtain ⟨h₁, h₂, h₃⟩ := hdecode
  rw [outcome_of_parse hparse, outcome_of_parse hparse, outcome_of_parse hparse, h₁, h₂, h₃]
  refine ⟨?_, rfl, ?_⟩ <;> cases text data <;> rfl

/-- The description of an error. -/
def expired : String := "\x7b\"error\": \x7b\"status\": 401\x7d\x7d"

theorem expired_answers :
    getUserProfile.handler (getUserProfile.outcome
      (fun data => if data = expired.toUTF8.toList then
        some (.object [("error", .object [("status", .number 401)])]) else none)
      (fun data => if data = expired.toUTF8.toList then some expired else none)
      (some expired.toUTF8.toList) false) = .error (.custom expired) := by
  obtain ⟨hprofile, -, -⟩ := error_body_answers
    (fun data => if data = expired.toUTF8.toList then
      some (.object [("error", .object [("status", .number 401)])]) else none)
    (fun data => if data = expired.toUTF8.toList then some expired else none)
    expired.toUTF8.toList _ (if_pos rfl) rfl rfl rfl "a" "7"
  rw [hprofile, if_pos rfl]
  rfl

end Endpoint

end Spotify
