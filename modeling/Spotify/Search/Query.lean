import Spotify.Lib.PercentEncoding
import Spotify.Api.Client
import Spotify.Search.ViewModel

/-!
# Spotify.Search.Query — the search text on its way to the server

The search bar replaces spaces by `%20`, and `getartistProfile` puts the text as it is between `q=` and
`&type=artist&limit=50`.  A text arrives exactly when each of its octets is a space or one that a query may
contain and that is not `&` (`search_received_iff`).
-/

namespace Spotify

open PercentEncoding

/-- `URL(string:)` accepts exactly the strings of RFC 3986; `isHier` is its grammar of what stands before the
query and the fragment. -/
structure AcceptsRFC3986 (F : Foundation) (isHier : Octets → Bool) : Prop where
  url_isSome : ∀ s, s ≠ "" → ((F.url s).isSome = true ↔ isHier (urlHier (utf8 s)) = true ∧
    (∀ query, urlQuery (utf8 s) = some query → WellFormed isQueryOctet query = true) ∧
    ∀ fragment, urlFragment (utf8 s) = some fragment → WellFormed isQueryOctet fragment = true)
  absoluteString : ∀ s url, F.url s = some url → url.absoluteString = s
  isHier_search : isHier (utf8 (Constants.baseUrl ++ "/search")) = true

/-- The request for the text `searchText` of the search bar is made, and its URL has no fragment and exactly
the parameters that were meant. -/
def Received (F : Foundation) (searchText : String) : Prop :=
  ∀ (id : ℕ) (token : String), ∃ request query,
    F.apiRequest ⟨id, .getartistProfile (replacingSpaces searchText)⟩ token =
      some request ∧
    urlFragment (utf8 request.url.absoluteString) = none ∧
    urlQuery (utf8 request.url.absoluteString) = some query ∧
    parameters decode query =
      [(utf8 "q", utf8 searchText), (utf8 "type", utf8 "artist"), (utf8 "limit", utf8 "50")]

/-- Only spaces, and octets of a query that separate nothing. -/
def Plain (searchText : String) : Prop :=
  ∀ b ∈ utf8 searchText, b = 0x20 ∨ isQueryOctet b = true ∧ b ≠ 0x26

/-! ### The octets of the URL -/

def notSpace (b : UInt8) : Bool := b ≠ 0x20

/-- The query that `getartistProfile` builds. -/
def searchQuery (text : Octets) : Octets := utf8 "q=" ++ text ++ utf8 "&type=artist&limit=50"

theorem utf8_replacingSpaces (s : String) :
    utf8 (replacingSpaces s) = encode notSpace (utf8 s) := by
  unfold replacingSpaces utf8 encode
  rw [String.toList_ofList]
  induction s.toList with
  | nil => rfl
  | cons c cs ih =>
    rw [List.flatMap_cons, List.flatMap_append, ih, List.flatMap_cons, List.flatMap_append]
    congr 1
    by_cases hc : c = ' '
    · subst hc
      decide
    · rw [if_neg hc, List.flatMap_cons, List.flatMap_nil, List.append_nil]
      -- no octet of another character is a space
      have hno : ∀ b ∈ String.utf8EncodeChar c, b ≠ 0x20 := by
        rintro b hb rfl
        have hc' := toNat_eq_of_mem_utf8EncodeChar hb (by decide)
        exact hc (Char.toNat_inj.mp hc')
      exact (encode_eq_self fun b hb => decide_eq_true (hno b hb)).symm

theorem utf8_urlString (text : String) :
    utf8 (Endpoint.getartistProfile text).urlString =
      utf8 (Constants.baseUrl ++ "/search") ++ 0x3F :: searchQuery (utf8 text) := by
  have hstart : utf8 (Constants.baseUrl ++ "/search?q=") =
      utf8 (Constants.baseUrl ++ "/search") ++ 0x3F :: utf8 "q=" := by decide +kernel
  simp only [Endpoint.urlString, utf8_append, searchQuery] at hstart ⊢
  rw [hstart]
  simp only [List.append_assoc, List.cons_append]

theorem isQueryOctet_of_hexVal {b : UInt8} : hexVal b ≠ none → isQueryOctet b = true :=
  forall_octet (P := fun b => hexVal b ≠ none → isQueryOctet b = true) (by decide +kernel) b

theorem searchQuery_eq (text : Octets) : searchQuery text =
    (utf8 "q" ++ 0x3D :: text) ++ 0x26 :: ((utf8 "type" ++ 0x3D :: utf8 "artist") ++
      0x26 :: (utf8 "limit" ++ 0x3D :: utf8 "50")) := by
  have hstart : utf8 "q=" = utf8 "q" ++ [0x3D] := by decide
  have hend : utf8 "&type=artist&limit=50" = 0x26 :: ((utf8 "type" ++ 0x3D :: utf8 "artist") ++
      0x26 :: (utf8 "limit" ++ 0x3D :: utf8 "50")) := by decide +kernel
  rw [searchQuery, hstart, hend, List.append_assoc, List.append_assoc]
  rfl

theorem wellFormed_searchQuery (text : Octets) :
    WellFormed isQueryOctet (searchQuery text) = WellFormed isQueryOctet text := by
  rw [searchQuery_eq, wellFormed_append_cons (by decide) (by decide),
    wellFormed_append_cons (by decide) (by decide)]
  have hq : WellFormed isQueryOctet (utf8 "q") = true := by decide
  have hrest : WellFormed isQueryOctet ((utf8 "type" ++ 0x3D :: utf8 "artist") ++
      0x26 :: (utf8 "limit" ++ 0x3D :: utf8 "50")) = true := by decide +kernel
  have hsep : isQueryOctet 0x3D = true ∧ isQueryOctet 0x26 = true := by decide
  rw [hq, hrest, hsep.1, hsep.2]
  simp

theorem parameters_searchQuery (read : Octets → Octets) (text : Octets) :
    parameters read (searchQuery text) = parameters read (utf8 "q" ++ 0x3D :: text) ++
      [(read (utf8 "type"), read (utf8 "artist")), (read (utf8 "limit"), read (utf8 "50"))] := by
  have htype : parameters read (utf8 "type" ++ 0x3D :: utf8 "artist") =
      [(read (utf8 "type"), read (utf8 "artist"))] := parameters_pair read (by decide) (by decide) (by decide)
  have hlimit : parameters read (utf8 "limit" ++ 0x3D :: utf8 "50") =
      [(read (utf8 "limit"), read (utf8 "50"))] := parameters_pair read (by decide) (by decide) (by decide)
  rw [searchQuery_eq, parameters_append, parameters_append, htype, hlimit]
  rfl

/-- The parameters are those that were meant exactly when the text contains no `&` and is read as meant. -/
theorem parameters_searchQuery_iff (text s : Octets) :
    parameters decode (searchQuery text) =
      [(utf8 "q", s), (utf8 "type", utf8 "artist"), (utf8 "limit", utf8 "50")] ↔
    0x26 ∉ text ∧ decode text = s := by
  have hconst : decode (utf8 "q") = utf8 "q" ∧ decode (utf8 "type") = utf8 "type" ∧
      decode (utf8 "artist") = utf8 "artist" ∧ decode (utf8 "limit") = utf8 "limit" ∧
      decode (utf8 "50") = utf8 "50" := by decide
  obtain ⟨hq, htype, hartist, hlimit, hfifty⟩ := hconst
  rw [← parameters_pair_iff decode (show (0x3D : UInt8) ∉ utf8 "q" by decide) (by decide), hq,
    parameters_searchQuery, htype, hartist, hlimit, hfifty]
  have hcancel : parameters decode (utf8 "q" ++ 0x3D :: text) ++
        [(utf8 "type", utf8 "artist"), (utf8 "limit", utf8 "50")] =
      [(utf8 "q", s)] ++ [(utf8 "type", utf8 "artist"), (utf8 "limit", utf8 "50")] ↔
    parameters decode (utf8 "q" ++ 0x3D :: text) = [(utf8 "q", s)] := List.append_left_inj _
  exact hcancel

/-! ### The URL as a whole -/

theorem parts_of_not_mem {text : Octets} (h : 0x23 ∉ text) :
    urlFragment (utf8 (Constants.baseUrl ++ "/search") ++ 0x3F :: searchQuery text) = none ∧
    urlQuery (utf8 (Constants.baseUrl ++ "/search") ++ 0x3F :: searchQuery text) =
      some (searchQuery text) ∧
    urlHier (utf8 (Constants.baseUrl ++ "/search") ++ 0x3F :: searchQuery text) =
      utf8 (Constants.baseUrl ++ "/search") := by
  have hbase : (0x23 : UInt8) ∉ utf8 (Constants.baseUrl ++ "/search") ∧
      (0x3F : UInt8) ∉ utf8 (Constants.baseUrl ++ "/search") := by decide +kernel
  have hconst : (0x23 : UInt8) ∉ utf8 "q=" ∧ (0x23 : UInt8) ∉ utf8 "&type=artist&limit=50" := by decide +kernel
  have hno : (0x23 : UInt8) ∉ utf8 (Constants.baseUrl ++ "/search") ++ 0x3F :: searchQuery text := by
    simp only [searchQuery, List.mem_append, List.mem_cons, hbase.1, hconst, h]
    decide
  unfold urlFragment urlQuery urlHier
  rw [cut_of_not_mem hno, cut_append_cons hbase.2]
  exact ⟨rfl, rfl, rfl⟩

theorem not_mem_of_fragment {text : Octets}
    (h : urlFragment (utf8 (Constants.baseUrl ++ "/search") ++ 0x3F :: searchQuery text) = none) :
    0x23 ∉ text := by
  intro hmem
  refine cut_eq_none.mp h (List.mem_append_right _ (List.mem_cons_of_mem _ ?_))
  exact List.mem_append_left _ (List.mem_append_right _ hmem)

/-- The octets of a text arrive exactly when they are plain. -/
theorem plain_iff (s : Octets) :
    (0x23 ∉ encode notSpace s ∧
      WellFormed isQueryOctet (encode notSpace s) = true ∧
      0x26 ∉ encode notSpace s ∧ decode (encode notSpace s) = s) ↔
    ∀ b ∈ s, b = 0x20 ∨ isQueryOctet b = true ∧ b ≠ 0x26 := by
  constructor
  · rintro ⟨hhash, hw, hamp, hd⟩ b hb
    by_cases hspace : b = 0x20
    · exact .inl hspace
    · have hk : notSpace b = true := decide_eq_true hspace
      have hmem := mem_encode_of_keep hb hk
      have hpercent := ne_of_decode_encode (by decide) hw hd b hb hk
      refine .inr ⟨?_, fun h => hamp (h ▸ hmem)⟩
      rcases mem_of_wellFormed hw hmem with h | h | h
      · exact absurd h hpercent
      · exact isQueryOctet_of_hexVal h
      · exact h
  · intro h
    have hkept : ∀ b ∈ s, notSpace b = true → b ≠ 0x25 ∧ isQueryOctet b = true := by
      intro b hb hk
      rcases h b hb with rfl | ⟨hq, -⟩
      · exact absurd rfl (of_decide_eq_true hk)
      · refine ⟨?_, hq⟩
        rintro rfl
        exact absurd hq (by decide)
    refine ⟨fun hmem => ?_, wellFormed_encode hkept, fun hmem => ?_,
      decode_encode fun b hb hk => (hkept b hb hk).1⟩
    · have hs := ((mem_encode_iff (by decide) (by decide)).mp hmem).1
      exact absurd (hkept _ hs (by decide)).2 (by decide)
    · have hs := ((mem_encode_iff (by decide) (by decide)).mp hmem).1
      rcases h _ hs with h | ⟨-, h⟩
      · exact absurd h (by decide)
      · exact h rfl

theorem url_of_apiRequest {F : Foundation} {call : APICall} {token : String} {request : URLRequest}
    (h : F.apiRequest call token = some request) : F.url call.endpoint.urlString = some request.url := by
  unfold Foundation.apiRequest at h
  cases hurl : F.url call.endpoint.urlString with
  | none => simp [hurl] at h
  | some url =>
    simp only [hurl, Option.some.injEq] at h
    rw [← h]

theorem apiRequest_of_url {F : Foundation} {e : Endpoint} (id : ℕ) (token : String)
    (h : (F.url e.urlString).isSome = true) : ∃ request, F.apiRequest ⟨id, e⟩ token = some request := by
  obtain ⟨url, hurl⟩ := Option.isSome_iff_exists.mp h
  unfold Foundation.apiRequest
  simp only [hurl]
  exact ⟨_, rfl⟩

theorem urlString_ne_empty (text : String) : (Endpoint.getartistProfile text).urlString ≠ "" := by
  intro h
  have hoctets := utf8_urlString text
  rw [h] at hoctets
  exact absurd hoctets.symm (by simp [utf8])

/-- **The search that is received.**  With a `URL(string:)` that accepts exactly the strings of RFC 3986, the
server is asked for the text that was typed exactly when the text is plain. -/
theorem search_received_iff (F : Foundation) (isHier : Octets → Bool) (hF : AcceptsRFC3986 F isHier)
    (searchText : String) : Received F searchText ↔ Plain searchText := by
  unfold Plain
  rw [← plain_iff]
  generalize ht : encode notSpace (utf8 searchText) = text
  have hurl : utf8 (Endpoint.getartistProfile (replacingSpaces searchText)).urlString =
      utf8 (Constants.baseUrl ++ "/search") ++ 0x3F :: searchQuery text := by
    rw [utf8_urlString, utf8_replacingSpaces, ← ht]
  have haccepts := hF.url_isSome _ (urlString_ne_empty (replacingSpaces searchText))
  rw [hurl] at haccepts
  constructor
  · intro h
    obtain ⟨request, query, hrequest, hfragment, hquery, hparameters⟩ := h 0 ""
    have hsome := url_of_apiRequest hrequest
    rw [hF.absoluteString _ _ hsome, hurl] at hfragment hquery
    have hhash := not_mem_of_fragment hfragment
    obtain ⟨-, hparts, -⟩ := parts_of_not_mem hhash
    obtain rfl := Option.some.inj (hparts.symm.trans hquery)
    obtain ⟨-, hw, -⟩ := haccepts.mp (by rw [hsome]; rfl)
    have hw := hw _ hparts
    rw [wellFormed_searchQuery] at hw
    obtain ⟨hamp, hdecode⟩ := (parameters_searchQuery_iff text _).mp hparameters
    exact ⟨hhash, hw, hamp, hdecode⟩
  · rintro ⟨hhash, hw, hamp, hdecode⟩ id token
    obtain ⟨hfragment, hquery, hhier⟩ := parts_of_not_mem hhash
    rw [hhier, hquery, hfragment] at haccepts
    have hsome : (F.url (Endpoint.getartistProfile (replacingSpaces searchText)).urlString).isSome = true := by
      refine haccepts.mpr ⟨hF.isHier_search, fun query h => ?_, fun _ h => by cases h⟩
      obtain rfl := Option.some.inj h
      rw [wellFormed_searchQuery]
      exact hw
    obtain ⟨request, hrequest⟩ := apiRequest_of_url id token hsome
    have hurl' := hF.absoluteString _ _ (url_of_apiRequest hrequest)
    refine ⟨request, searchQuery text, hrequest, ?_, ?_, ?_⟩
    · rw [hurl', hurl, hfragment]
    · rw [hurl', hurl, hquery]
    · exact (parameters_searchQuery_iff text _).mpr ⟨hamp, hdecode⟩

/-! ### A concrete `URL(string:)` -/

/-- What may stand before the query, octet by octet. -/
def isHierText (hier : Octets) : Bool := hier.all fun b => isQueryOctet b || b = 0x5B || b = 0x5D

/-- Foundation whose URLs are those of RFC 3986 as far as query and fragment go. -/
def Foundation.strict : Foundation :=
  { Foundation.ascii with
    url := fun s =>
      let octets := PercentEncoding.utf8 s
      if s ≠ "" ∧ isHierText (urlHier octets) ∧ (urlQuery octets).all (WellFormed isQueryOctet) ∧
        (urlFragment octets).all (WellFormed isQueryOctet) then some ⟨s⟩ else none
    url_tokenURL := by decide +kernel }

theorem acceptsRFC3986_strict : AcceptsRFC3986 .strict isHierText where
  url_isSome s hs := by
    simp [Foundation.strict, hs, Option.all_eq_true]
  absoluteString s url h := by
    simp only [Foundation.strict] at h
    split at h
    · cases h
      rfl
    · cases h
  isHier_search := by decide +kernel

/-- A name with a space arrives. -/
theorem received_daft_punk : Received .strict "Daft Punk" :=
  (search_received_iff .strict isHierText acceptsRFC3986_strict "Daft Punk").mpr (by
    unfold Plain
    decide +kernel)

/-- `&` adds a parameter, `#` ends the query, `%` and a letter outside ASCII lose the request. -/
theorem search_not_received : AcceptsRFC3986 .strict isHierText ∧
    ∀ s ∈ ["R&B", "C#", "100%", "Motörhead"], ¬ Received .strict s := by
  have arrives : ∀ s, Received .strict s →
      (Foundation.strict.apiRequest ⟨0, .getartistProfile (replacingSpaces s)⟩ "").any (fun request =>
        urlFragment (utf8 request.url.absoluteString) = none ∧
          (urlQuery (utf8 request.url.absoluteString)).any (fun query => parameters decode query =
            [(utf8 "q", utf8 s), (utf8 "type", utf8 "artist"), (utf8 "limit", utf8 "50")])) = true := by
    intro s h
    obtain ⟨request, query, hrequest, hfragment, hquery, hparameters⟩ := h 0 ""
    simp [hrequest, hfragment, hquery, hparameters]
  refine ⟨acceptsRFC3986_strict, fun s hs h => ?_⟩
  have hno := arrives s h
  revert hno
  simp only [List.mem_cons, List.not_mem_nil, or_false] at hs
  rcases hs with rfl | rfl | rfl | rfl <;> decide +kernel

end Spotify
