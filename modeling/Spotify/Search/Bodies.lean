import Spotify.Api.Bodies
import Spotify.Search.Settled

/-!
# Spotify.Search.Bodies — from the body of a search to its screen

What the collection view shows once the answer to a search has been handled, by the body of the answer: a body
without artists empties the list and is announced to nobody, and a list with one element that is no artist
leaves the old list in place, with an alert.
-/

namespace Spotify.SearchViewController

open Codec (object)

variable {s : SearchViewController}

/-- What the completion of a search gets, from the arguments of the handler of its data task. -/
def answer (parse : Data → Option JSON) (text : Data → Option String) (artist : String) (data : Option Data)
    (error : Bool) : Option (Except APIError ArtistsSearchResponse) :=
  artistsResult ((Endpoint.getartistProfile artist).handler
    ((Endpoint.getartistProfile artist).outcome parse text data error))

theorem answer_ok {parse : Data → Option JSON} {text : Data → Option String} {artist : String} {data : Data}
    {body : JSON} {model : ArtistsSearchResponse} (hparse : parse data = some body)
    (h : (Endpoint.getartistProfile artist).decode body = some (.artists model)) :
    answer parse text artist (some data) false = some (.ok model) := by
  rw [answer, Endpoint.outcome_of_parse hparse, h]
  rfl

theorem answer_error {parse : Data → Option JSON} {text : Data → Option String} {artist : String} {data : Data}
    {body : JSON} (hparse : parse data = some body)
    (h : (Endpoint.getartistProfile artist).decode body = none) :
    answer parse text artist (some data) false = some (.error .decoding) := by
  rw [answer, Endpoint.outcome_of_parse hparse, h]
  cases text data <;> rfl

/-- The answer to a search that is in flight. -/
theorem step_response {search : ℕ} {text : String} (h : s.viewModel.searches.find? search = some text)
    (result : Except APIError ArtistsSearchResponse) :
    s.step (.response search result) = some (s.update false
      (({ s.viewModel with searches := s.viewModel.searches.finish search } :
        SearchViewModel).getArtistsCompletion result)) := by
  rw [step, h]
  rfl

/-- **What a body does to the list.**  Whatever the state of the screen: once the answer has been handled, a
body without artists has emptied the list without an alert; a list of artists is shown in its order; and if
one element of the list is no artist, the old list stays and an alert is shown. -/
theorem body_shown (parse : Data → Option JSON) (text : Data → Option String) (artist sent : String)
    (data : Data) (m : List (String × JSON)) (s : SearchViewController) (search : ℕ)
    (hparse : parse data = some (.object m)) (hs : s.viewModel.searches.find? search = some sent) :
    ((m.lookup "artists" = none ∨ m.lookup "artists" = some .null) →
      ∃ result s', answer parse text artist (some data) false = some result ∧
        s.step (.response search result) = some s' ∧ s'.viewModel.artist = none ∧ s'.settled.rows = 0 ∧
        s'.settled.alerts = s.settled.alerts) ∧
    ∀ a items href, m.lookup "artists" = some (.object a) → a.lookup "items" = some (.array items) →
      (Record.optional "href" Codec.string).decode a = some href →
      (∀ found, List.Forall₂ (fun item artist => (object Artist.record).decode item = some artist) items found →
        ∃ result s', answer parse text artist (some data) false = some result ∧
          s.step (.response search result) = some s' ∧ s'.viewModel.artist = some ⟨href, found⟩ ∧
          s'.settled.rows = items.length ∧ s'.settled.alerts = s.settled.alerts) ∧
      (∀ item ∈ items, (object Artist.record).decode item = none →
        ∃ result s', answer parse text artist (some data) false = some result ∧
          s.step (.response search result) = some s' ∧ s'.viewModel.artist = s.viewModel.artist ∧
          s'.settled.rows = s.settled.rows ∧ s'.settled.alerts = s.settled.alerts ++ [.decoding]) := by
  let vm := { s.viewModel with searches := s.viewModel.searches.finish search }
  have shown : ∀ model, answer parse text artist (some data) false = some (.ok model) →
      ∃ result s', answer parse text artist (some data) false = some result ∧
        s.step (.response search result) = some s' ∧ s'.viewModel.artist = model.artists ∧
        s'.settled.rows = (vm.getArtistsCompletion (.ok model)).1.numberOfItems ∧
        s'.settled.alerts = s.settled.alerts := by
    intro model hanswer
    obtain ⟨-, hrows, halerts⟩ := settled_found (s := s) vm model
    refine ⟨.ok model, _, hanswer, step_response hs _, ?_, hrows, halerts⟩
    rw [viewModel_update]
    rfl
  refine ⟨fun hno => ?_, fun a items href hm ha hhref => ⟨fun found hfound => ?_, fun item hitem hnone => ?_⟩⟩
  · exact shown ⟨none⟩ (answer_ok hparse (Endpoint.decode_search_missing artist hno))
  · have hdecode := Endpoint.decode_search artist hm ha hhref
    rw [Codec.mapM_eq_some.mpr hfound, Option.map_some] at hdecode
    rw [hfound.length_eq]
    exact shown ⟨some ⟨href, found⟩⟩ (answer_ok hparse hdecode)
  · have hdecode := Endpoint.decode_search artist hm ha hhref
    rw [Codec.mapM_eq_none hitem hnone, Option.map_none] at hdecode
    obtain ⟨-, hrows, halerts⟩ := settled_failed (s := s) vm .decoding rfl
    refine ⟨.error .decoding, _, answer_error hparse hdecode, step_response hs _, ?_, hrows, halerts⟩
    rw [viewModel_update]
    rfl

/-- Two artists, the second one without a name. -/
def namelessText : String :=
  "\x7b\"artists\":\x7b\"items\":[\x7b\"id\":\"7\",\"name\":\"A\"\x7d,\x7b\"id\":\"8\"\x7d]\x7d\x7d"

def nameless : List JSON :=
  [.object [("id", .string "7"), ("name", .string "A")], .object [("id", .string "8")]]

def parseNameless (data : Data) : Option JSON :=
  if data = namelessText.toUTF8.toList then some (.object [("artists", .object [("items", .array nameless)])])
  else none

theorem nameless_shown : ∃ s result s',
    Runs.exec step launch [.textDidChange "a", .debounce] = some s ∧
    answer parseNameless (fun _ => some namelessText) "a" (some namelessText.toUTF8.toList) false = some result ∧
    s.step (.response 0 result) = some s' ∧ s'.viewModel.artist = none ∧ s'.settled.alerts = [.decoding] := by
  obtain ⟨s, hs, hsearch, hartist, halerts⟩ : ∃ s,
      Runs.exec step launch [.textDidChange "a", .debounce] = some s ∧
      s.viewModel.searches.find? 0 = some "a" ∧ s.viewModel.artist = none ∧ s.settled.alerts = [] :=
    Runs.exec_of_any (by decide +kernel)
  have hparse : parseNameless namelessText.toUTF8.toList =
      some (.object [("artists", .object [("items", .array nameless)])]) := if_pos rfl
  obtain ⟨-, hlist⟩ := body_shown parseNameless (fun _ => some namelessText) "a" "a" _ _ s 0 hparse hsearch
  obtain ⟨-, hbad⟩ := hlist [("items", .array nameless)] nameless none rfl rfl rfl
  obtain ⟨result, s', hanswer, hstep, hkept, -, hshown⟩ :=
    hbad (.object [("id", .string "8")]) (by simp [nameless]) rfl
  exact ⟨s, result, s', hs, hanswer, hstep, hkept.trans hartist, by rw [hshown, halerts]; rfl⟩

end Spotify.SearchViewController
