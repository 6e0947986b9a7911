import Spotify.Album.ViewModel
import Spotify.Auth.Forms
import Spotify.Search.Query

/-!
# Spotify.Album.Path — the artist that the album call asks for

`getArtistAlbum` puts the id of the artist as it is between two slashes of its URL.  The server reads the
segments of the path; it finds the artist there exactly when each octet of the id may stand in a segment, and
the id is no dot segment (`albums_received_iff`).
-/

namespace Spotify

open PercentEncoding

/-- The grammar of RFC 3986 also for a path below that of the artists. -/
structure AcceptsPaths (F : Foundation) (isHier : Octets → Bool) : Prop extends AcceptsRFC3986 F isHier where
  isHier_artists : ∀ path, isHier (utf8 (Constants.baseUrl ++ "/artists/") ++ path) = WellFormed isPathOctet path

/-- The segments above that of an artist. -/
def artistsPath : List Octets := segments (utf8 (Constants.baseUrl ++ "/artists"))

/-- The request for the albums of the artist `id` is made, its URL has neither query nor fragment, and its
path names the artist. -/
def AlbumsReceived (F : Foundation) (id : String) : Prop :=
  ∀ (k : ℕ) (token : String), ∃ request,
    F.apiRequest ⟨k, .getArtistAlbum id⟩ token = some request ∧
    urlFragment (utf8 request.url.absoluteString) = none ∧
    urlQuery (utf8 request.url.absoluteString) = none ∧
    removeDotSegments (segments (urlHier (utf8 request.url.absoluteString))) =
      artistsPath ++ [utf8 id, utf8 "albums"]

/-- Only octets of a segment, and no dot segment. -/
def Segment (id : String) : Prop :=
  (∀ b ∈ utf8 id, isPathOctet b = true ∧ b ≠ 0x2F) ∧ id ≠ "." ∧ id ≠ ".."

theorem utf8_inj {s t : String} : utf8 s = utf8 t ↔ s = t := by
  refine ⟨fun h => ?_, fun h => by rw [h]⟩
  have htext : text (utf8 s) = text (utf8 t) := by rw [h]
  rw [text_utf8, text_utf8] at htext
  exact Option.some.inj htext

/-! ### The octets of the URL -/

/-- What stands below `/artists/`. -/
def albumsPath (id : Octets) : Octets := id ++ 0x2F :: utf8 "albums"

theorem utf8_albumsUrl (id : String) : utf8 (Endpoint.getArtistAlbum id).urlString =
    utf8 (Constants.baseUrl ++ "/artists/") ++ albumsPath (utf8 id) := by
  have hend : utf8 "/albums" = 0x2F :: utf8 "albums" := by decide
  show utf8 (Constants.baseUrl ++ "/artists/" ++ id ++ "/albums") = _
  rw [utf8_append, utf8_append, hend, albumsPath, List.append_assoc]

theorem artists_slash (path : Octets) : utf8 (Constants.baseUrl ++ "/artists/") ++ path =
    utf8 (Constants.baseUrl ++ "/artists") ++ 0x2F :: path := by
  have hslash : utf8 (Constants.baseUrl ++ "/artists/") =
      utf8 (Constants.baseUrl ++ "/artists") ++ [0x2F] := by decide +kernel
  rw [hslash, List.append_assoc, List.singleton_append]

theorem wellFormed_albumsPath (id : Octets) :
    WellFormed isPathOctet (albumsPath id) = WellFormed isPathOctet id := by
  have hend : isPathOctet 0x2F = true ∧ WellFormed isPathOctet (utf8 "albums") = true := by decide
  rw [albumsPath, wellFormed_append_cons (by decide) (by decide), hend.1, hend.2, Bool.and_self, Bool.and_true]

theorem segments_albumsUrl (id : Octets) :
    segments (utf8 (Constants.baseUrl ++ "/artists/") ++ albumsPath id) =
      artistsPath ++ (segments id ++ [utf8 "albums"]) := by
  have hend : segments (utf8 "albums") = [utf8 "albums"] := by decide
  rw [artists_slash, segments_append, albumsPath, segments_append, hend, artistsPath]

/-- An octet other than a slash that stands in the URL of no artist stands in the id. -/
theorem mem_albumsUrl {id : Octets} {b : UInt8} (hb : b ∉ utf8 (Constants.baseUrl ++ "/artists/") ++ albumsPath id) :
    b ∉ id := by
  intro hmem
  apply hb
  exact List.mem_append_right _ (List.mem_append_left _ hmem)

/-- Without `#` and `?` the URL is all path. -/
theorem parts_albumsUrl {id : Octets} (hhash : 0x23 ∉ id) (hquery : 0x3F ∉ id) :
    urlFragment (utf8 (Constants.baseUrl ++ "/artists/") ++ albumsPath id) = none ∧
    urlQuery (utf8 (Constants.baseUrl ++ "/artists/") ++ albumsPath id) = none ∧
    urlHier (utf8 (Constants.baseUrl ++ "/artists/") ++ albumsPath id) =
      utf8 (Constants.baseUrl ++ "/artists/") ++ albumsPath id := by
  have hbase : (0x23 : UInt8) ∉ utf8 (Constants.baseUrl ++ "/artists/") ∧
      (0x3F : UInt8) ∉ utf8 (Constants.baseUrl ++ "/artists/") := by decide +kernel
  have hend : (0x23 : UInt8) ∉ 0x2F :: utf8 "albums" ∧ (0x3F : UInt8) ∉ 0x2F :: utf8 "albums" := by decide
  have hnohash : (0x23 : UInt8) ∉ utf8 (Constants.baseUrl ++ "/artists/") ++ albumsPath id := by
    rw [albumsPath, List.mem_append, List.mem_append]
    exact not_or.mpr ⟨hbase.1, not_or.mpr ⟨hhash, hend.1⟩⟩
  have hnoquery : (0x3F : UInt8) ∉ utf8 (Constants.baseUrl ++ "/artists/") ++ albumsPath id := by
    rw [albumsPath, List.mem_append, List.mem_append]
    exact not_or.mpr ⟨hbase.2, not_or.mpr ⟨hquery, hend.2⟩⟩
  unfold urlFragment urlQuery urlHier
  rw [cut_of_not_mem hnohash, cut_of_not_mem hnoquery]
  exact ⟨rfl, rfl, rfl⟩

/-! ### The path that the server reads -/

/-- The path names the artist exactly when the id is one segment and is read as it is. -/
theorem removeDotSegments_albumsUrl_iff (id : Octets) :
    removeDotSegments (artistsPath ++ (segments id ++ [utf8 "albums"])) =
      artistsPath ++ [id, utf8 "albums"] ↔
    0x2F ∉ id ∧ decode id = id ∧ id ≠ utf8 "." ∧ id ≠ utf8 ".." := by
  have hbase : removeDotSegments artistsPath = artistsPath := by decide +kernel
  have hlast : ∀ path, addSegment path (utf8 "albums") = path ++ [utf8 "albums"] := by
    intro path
    have hdots : utf8 "albums" ≠ utf8 "." ∧ utf8 "albums" ≠ utf8 ".." := by decide
    rw [addSegment, if_neg hdots.1, if_neg hdots.2]
  have hone : 0x2F ∉ id → removeDotSegments (artistsPath ++ (segments id ++ [utf8 "albums"])) =
      addSegment artistsPath (decode id) ++ [utf8 "albums"] := by
    intro hslash
    rw [removeDotSegments_append, hbase, segments_of_not_mem hslash]
    exact hlast _
  constructor
  · intro h
    have hslash : 0x2F ∉ id := by
      intro hslash
      have hmem : id ∈ artistsPath ++ (segments id ++ [utf8 "albums"]) := by
        apply mem_of_mem_removeDotSegments
        rw [h]
        exact List.mem_append_right _ List.mem_cons_self
      have hconst : ∀ segment ∈ artistsPath ++ [utf8 "albums"], (0x2F : UInt8) ∉ segment := by decide +kernel
      rcases List.mem_append.mp hmem with hhere | hhere
      · exact hconst id (List.mem_append_left _ hhere) hslash
      · rcases List.mem_append.mp hhere with hown | halbums
        · exact not_mem_segments hslash hown
        · exact hconst id (List.mem_append_right _ halbums) hslash
    rw [hone hslash] at h
    have hsplit : artistsPath ++ [id, utf8 "albums"] = (artistsPath ++ [id]) ++ [utf8 "albums"] := by
      rw [List.append_assoc, List.singleton_append]
    rw [hsplit] at h
    have hadd : addSegment artistsPath (decode id) = artistsPath ++ [id] := List.append_cancel_right h
    have hlen := congrArg List.length hadd
    unfold addSegment at hadd hlen
    by_cases hdot : decode id = utf8 "."
    · rw [if_pos hdot, List.length_append, List.length_singleton] at hlen
      omega
    · rw [if_neg hdot] at hadd hlen
      by_cases hdots : decode id = utf8 ".."
      · rw [if_pos hdots, List.length_dropLast, List.length_append, List.length_singleton] at hlen
        omega
      · rw [if_neg hdots] at hadd
        have hdecode : decode id = id := List.singleton_inj.mp (List.append_cancel_left hadd)
        rw [hdecode] at hdot hdots
        exact ⟨hslash, hdecode, hdot, hdots⟩
  · rintro ⟨hslash, hdecode, hdot, hdots⟩
    rw [hone hslash, hdecode, addSegment, if_neg hdot, if_neg hdots, List.append_assoc, List.singleton_append]

theorem isPathOctet_of_hexVal {b : UInt8} : hexVal b ≠ none → isPathOctet b = true :=
  forall_octet (P := fun b => hexVal b ≠ none → isPathOctet b = true) (by decide +kernel) b

/-- A well-formed id that is read as it is contains no triplet. -/
theorem isPathOctet_of_decode {id : Octets} (hw : WellFormed isPathOctet id = true) (hdecode : decode id = id) :
    ∀ b ∈ id, isPathOctet b = true := by
  intro b hb
  have hpercent := not_mem_of_decode_eq_self (by decide) hw hdecode
  rcases mem_of_wellFormed hw hb with rfl | h | h
  · exact absurd hb hpercent
  · exact isPathOctet_of_hexVal h
  · exact h

/-- **The artist whose albums are asked for.**  With a `URL(string:)` that accepts exactly the strings of
RFC 3986, the server is asked for the albums of the artist with this very id exactly when the id consists of
octets of a path segment, none of them percent-encoded, and is no dot segment. -/
theorem albums_received_iff (F : Foundation) (isHier : Octets → Bool) (hF : AcceptsPaths F isHier) (id : String) :
    AlbumsReceived F id ↔ Segment id := by
  have hoctets := utf8_albumsUrl id
  have hne : (Endpoint.getArtistAlbum id).urlString ≠ "" := by
    intro h
    rw [h, albumsPath] at hoctets
    have hlen := congrArg List.length hoctets
    have hempty : (utf8 "").length = 0 := rfl
    simp only [List.length_append, List.length_cons, hempty] at hlen
    omega
  have haccepts := hF.url_isSome _ hne
  rw [hoctets] at haccepts
  constructor
  · intro h
    obtain ⟨request, hrequest, hfragment, hquery, hpath⟩ := h 0 ""
    have hsome := url_of_apiRequest hrequest
    rw [hF.absoluteString _ _ hsome, hoctets] at hfragment hquery hpath
    have hhash : 0x23 ∉ utf8 id := mem_albumsUrl (cut_eq_none.mp hfragment)
    have hmark : 0x3F ∉ utf8 id := by
      unfold urlQuery at hquery
      rw [cut_of_not_mem (cut_eq_none.mp hfragment)] at hquery
      exact mem_albumsUrl (cut_eq_none.mp hquery)
    obtain ⟨-, -, hhier⟩ := parts_albumsUrl hhash hmark
    rw [hhier] at haccepts hpath
    have hw : WellFormed isPathOctet (utf8 id) = true := by
      have hw := (haccepts.mp (by rw [hsome]; rfl)).1
      rwa [hF.isHier_artists, wellFormed_albumsPath] at hw
    rw [segments_albumsUrl] at hpath
    obtain ⟨hslash, hdecode, hdot, hdots⟩ := (removeDotSegments_albumsUrl_iff _).mp hpath
    refine ⟨fun b hb => ⟨isPathOctet_of_decode hw hdecode b hb, ?_⟩, ?_, ?_⟩
    · rintro rfl
      exact hslash hb
    · exact fun heq => hdot (utf8_inj.mpr heq)
    · exact fun heq => hdots (utf8_inj.mpr heq)
  · rintro ⟨hocts, hdot, hdots⟩ k token
    have hno : ∀ b, isPathOctet b = false → b ∉ utf8 id := by
      intro b hb hmem
      rw [(hocts b hmem).1] at hb
      cases hb
    have hpercent : 0x25 ∉ utf8 id := hno _ (by decide)
    have hhash : 0x23 ∉ utf8 id := hno _ (by decide)
    have hmark : 0x3F ∉ utf8 id := hno _ (by decide)
    have hw : WellFormed isPathOctet (utf8 id) = true :=
      wellFormed_of_not_mem hpercent fun b hb => (hocts b hb).1
    obtain ⟨hfragment, hquery, hhier⟩ := parts_albumsUrl hhash hmark
    rw [hhier, hquery, hfragment] at haccepts
    have hsome : (F.url (Endpoint.getArtistAlbum id).urlString).isSome = true := by
      refine haccepts.mpr ⟨?_, ⟨fun _ h => by (cases h), fun _ h => by (cases h)⟩⟩
      rw [hF.isHier_artists, wellFormed_albumsPath]
      exact hw
    obtain ⟨request, hrequest⟩ := apiRequest_of_url k token hsome
    have hurl := hF.absoluteString _ _ (url_of_apiRequest hrequest)
    have hslash : 0x2F ∉ utf8 id := fun hmem => (hocts _ hmem).2 rfl
    refine ⟨request, hrequest, ?_, ?_, ?_⟩
    · rw [hurl, hoctets, hfragment]
    · rw [hurl, hoctets, hquery]
    · rw [hurl, hoctets, hhier, segments_albumsUrl]
      refine (removeDotSegments_albumsUrl_iff _).mpr ⟨hslash, decode_of_not_mem hpercent, ?_, ?_⟩
      · exact fun heq => hdot (utf8_inj.mp heq)
      · exact fun heq => hdots (utf8_inj.mp heq)

/-! ### A concrete `URL(string:)` -/

/-- An `https` URL up to its query. -/
def isHttpsHier (hier : Octets) : Bool :=
  (utf8 "https://").isPrefixOf hier && WellFormed isPathOctet (hier.drop 8)

/-- Foundation whose URLs are the `https` URLs of RFC 3986. -/
def Foundation.https : Foundation :=
  { Foundation.ascii with
    url := fun s =>
      let octets := PercentEncoding.utf8 s
      if s ≠ "" ∧ isHttpsHier (urlHier octets) ∧ (urlQuery octets).all (WellFormed isQueryOctet) ∧
        (urlFragment octets).all (WellFormed isQueryOctet) then some ⟨s⟩ else none
    url_tokenURL := by decide +kernel }

theorem acceptsPaths_https : AcceptsPaths .https isHttpsHier where
  url_isSome s hs := by
    simp [Foundation.https, hs, Option.all_eq_true]
  absoluteString s url h := by
    simp only [Foundation.https] at h
    split at h
    · cases h
      rfl
    · cases h
  isHier_search := by decide +kernel
  isHier_artists path := by
    have hbase : utf8 (Constants.baseUrl ++ "/artists") =
        utf8 "https://" ++ utf8 "api.spotify.com/v1/artists" := by decide +kernel
    have hhost : WellFormed isPathOctet (utf8 "api.spotify.com/v1/artists") = true ∧ isPathOctet 0x2F = true := by
      decide +kernel
    have hprefix : (utf8 "https://").isPrefixOf
        (utf8 "https://" ++ (utf8 "api.spotify.com/v1/artists" ++ 0x2F :: path)) = true :=
      List.isPrefixOf_iff_prefix.mpr (List.prefix_append _ _)
    have hdrop : (utf8 "https://" ++ (utf8 "api.spotify.com/v1/artists" ++ 0x2F :: path)).drop 8 =
        utf8 "api.spotify.com/v1/artists" ++ 0x2F :: path := rfl
    rw [artists_slash, hbase, List.append_assoc, isHttpsHier, hprefix, hdrop,
      wellFormed_append_cons (by decide) (by decide), hhost.1, hhost.2, Bool.true_and, Bool.true_and, Bool.true_and]

/-- An id of letters and digits arrives; one with a slash, a percent-encoded octet or dots does not. -/
theorem received_artist : AlbumsReceived .https "4tZwfgrHOc3mvqYlEYSvVi" ∧
    ∀ id ∈ ["a/b", "%41", "..", "a?b"], ¬ AlbumsReceived .https id := by
  constructor
  · refine (albums_received_iff .https isHttpsHier acceptsPaths_https _).mpr ⟨?_, by decide, by decide⟩
    decide +kernel
  · intro id hid h
    obtain ⟨hocts, -, hdots⟩ := (albums_received_iff .https isHttpsHier acceptsPaths_https id).mp h
    simp only [List.mem_cons, List.not_mem_nil, or_false] at hid
    rcases hid with rfl | rfl | rfl | rfl
    · exact absurd (hocts 0x2F (by decide)).2 (by decide)
    · exact absurd (hocts 0x25 (by decide)).1 (by decide)
    · exact hdots rfl
    · exact absurd (hocts 0x3F (by decide)).1 (by decide)

end Spotify
