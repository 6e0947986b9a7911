import Spotify.Lib.PercentEncoding
import Spotify.Auth.Manager

/-!
# Spotify.Auth.Forms — the bodies of the token requests

A code comes percent-encoded in the redirect, is taken out decoded, encoded by `queryItems`, decoded again by
`query`, and sent as form content, which the server decodes once more; a refresh token takes the last three
ways.  What arrives is the form reading of the plain text (`token_bodies_iff`).
-/

namespace Spotify

open PercentEncoding

/-- A `URLQueryItem` as it is read. -/
structure ParsedQueryItem where
  name : String
  value : Option String
  deriving DecidableEq

/-- The code that `scene(_:openURLContexts:)` takes from the URL; `queryItems` is that of
`URLComponents(string:)`. -/
def SceneDelegate.code (queryItems : String → Option (List ParsedQueryItem)) (url : String) :
    Option String :=
  (queryItems url).bind fun items => (items.find? fun item => item.name = "code").bind ParsedQueryItem.value

/-! ### What is assumed of Foundation -/

/-- The text that `queryItems` leaves in `URLComponents`: names and values encoded but for the octets in
`keep`. -/
def encodedItems (keep : UInt8 → Bool) (items : List URLQueryItem) : Octets :=
  [0x26].intercalate (items.map fun item =>
    encode keep (utf8 item.name) ++ 0x3D :: encode keep (utf8 item.value))

/-- `queryItems` percent-encodes, `%` included, and `query` removes the encoding. -/
structure EncodesItems (F : Foundation) (keep : UInt8 → Bool) : Prop where
  keep_percent : keep 0x25 = false
  query : ∀ items, items ≠ [] → ∃ text, F.query items = some text ∧
    utf8 text = decode (encodedItems keep items)
  data : ∀ s, F.utf8 s = some (utf8 s)

/-- The octets `part` of a query are the item `item`, percent-encoded. -/
def Carries (part : Octets) (item : ParsedQueryItem) : Prop :=
  decode (cut 0x3D part).1 = utf8 item.name ∧
    (cut 0x3D part).2.map decode = item.value.map utf8

def redirectURI := "spotifycodetest://returnafterlogin"

/-- `queryItems` of `URLComponents(string:)`, for a redirect: the items in order, decoded. -/
def DecodesItems (queryItems : String → Option (List ParsedQueryItem)) : Prop :=
  ∀ url query items, urlHier (utf8 url) = utf8 redirectURI →
    urlQuery (utf8 url) = some query → WellFormed isQueryOctet query = true →
    List.Forall₂ Carries (query.splitOn 0x26) items → queryItems url = some items

/-- A sign-in redirect with the code `code`, in any percent-encoding and among any other parameters. -/
def CarriesCode (url code : String) : Prop :=
  ∃ query before after, urlHier (utf8 url) = utf8 redirectURI ∧
    urlQuery (utf8 url) = some query ∧ WellFormed isQueryOctet query = true ∧
    List.Forall₂ Carries (query.splitOn 0x26) (before ++ ⟨"code", some code⟩ :: after) ∧
    ∀ item ∈ before, item.name ≠ "code"

/-! ### The bodies -/

def Exchange.httpBody {κ β : Type} : Exchange κ β → Option Data
  | .generateToken request _ => request.httpBody
  | .refreshToken request _ => request.httpBody

/-- Reading `text` as a value of form content gives `text` back: no `&`, no `+`, no `%` with two digits. -/
def FormSafe (text : String) : Prop :=
  0x26 ∉ utf8 text ∧ 0x2B ∉ utf8 text ∧ ¬ HasTriplet (utf8 text)

/-- The items as they are sent, not encoded. -/
def plainItems (items : List URLQueryItem) : Octets :=
  [0x26].intercalate (items.map fun item => utf8 item.name ++ 0x3D :: utf8 item.value)

namespace AuthenticationManager

variable {κ β : Type} (F : Foundation) (m : AuthenticationManager κ β)

/-- The body of the request that `generateToken` sends. -/
def loginBody (code : String) (completion : β) : Option Data :=
  ((m.generateToken F code completion).1.tasks.find? m.tasks.next).bind Exchange.httpBody

/-- The body of the request that `refreshToken` sends. -/
def refreshBody (completion : RefreshCompletion κ β) : Option Data :=
  ((m.refreshToken F completion).1.tasks.find? m.tasks.next).bind Exchange.httpBody

/-- The redirect `url` leads to a request whose body says that the code is `code`. -/
def LoginRecovered (queryItems : String → Option (List ParsedQueryItem)) (url code : String)
    (completion : β) : Prop :=
  ∃ extracted body, SceneDelegate.code queryItems url = some extracted ∧
    m.loginBody F extracted completion = some body ∧
    parameters formRead body = [(utf8 "grant_type", utf8 "authorization_code"), (utf8 "code", utf8 code),
      (utf8 "redirect_uri", utf8 redirectURI)]

/-- The refresh leads to a request whose body says that the refresh token is `refreshToken`. -/
def RefreshRecovered (refreshToken : String) (completion : RefreshCompletion κ β) : Prop :=
  ∃ body, m.refreshBody F completion = some body ∧
    parameters formRead body =
      [(utf8 "grant_type", utf8 "refresh_token"), (utf8 "refresh_token", utf8 refreshToken)]

end AuthenticationManager

/-! ### What is sent -/

theorem encodedItems_cons (keep : UInt8 → Bool) (item next : URLQueryItem) (items : List URLQueryItem) :
    encodedItems keep (item :: next :: items) = encode keep (utf8 item.name) ++ 0x3D ::
      (encode keep (utf8 item.value) ++ 0x26 :: encodedItems keep (next :: items)) := by
  simp only [encodedItems, List.map_cons, List.intercalate_cons_cons, List.append_assoc,
    List.cons_append, List.nil_append]

theorem plainItems_cons (item next : URLQueryItem) (items : List URLQueryItem) :
    plainItems (item :: next :: items) =
      (utf8 item.name ++ 0x3D :: utf8 item.value) ++ 0x26 :: plainItems (next :: items) := by
  simp only [plainItems, List.map_cons, List.intercalate_cons_cons, List.append_assoc,
    List.cons_append, List.nil_append]

theorem plainItems_singleton (item : URLQueryItem) :
    plainItems [item] = utf8 item.name ++ 0x3D :: utf8 item.value := List.intercalate_singleton

theorem decode_encodedItems {keep : UInt8 → Bool} (hk : keep 0x25 = false) (items : List URLQueryItem) :
    decode (encodedItems keep items) = plainItems items := by
  have hkeep : ∀ s : Octets, ∀ b ∈ s, keep b = true → b ≠ 0x25 := by
    rintro s b - hb rfl
    rw [hk] at hb
    cases hb
  have hitem : ∀ name value rest : Octets,
      decode (encode keep name ++ 0x3D :: (encode keep value ++ rest)) = name ++ 0x3D :: (value ++ decode rest) := by
    intro name value rest
    rw [decode_encode_append (hkeep name), decode_cons_of_ne (by decide), decode_encode_append (hkeep value)]
  induction items with
  | nil => rfl
  | cons item items ih =>
    cases items with
    | nil =>
      have h := hitem (utf8 item.name) (utf8 item.value) []
      rw [List.append_nil, decode, List.append_nil] at h
      rw [plainItems_singleton, ← h]
      exact congrArg decode List.intercalate_singleton
    | cons next items =>
      rw [encodedItems_cons, hitem, decode_cons_of_ne (by decide), ih, plainItems_cons]
      simp only [List.append_assoc, List.cons_append]

theorem EncodesItems.body {F : Foundation} {keep : UInt8 → Bool} (hF : EncodesItems F keep)
    {items : List URLQueryItem} (h : items ≠ []) :
    (F.query items).bind F.utf8 = some (plainItems items) := by
  obtain ⟨text, htext, hoctets⟩ := hF.query items h
  rw [htext, Option.bind_some, hF.data, hoctets, decode_encodedItems hF.keep_percent]

theorem httpBody_tokenRequest {F : Foundation} {u : URL} {items : List URLQueryItem} {request : URLRequest}
    (h : F.tokenRequest u items = some request) : request.httpBody = (F.query items).bind F.utf8 := by
  unfold Foundation.tokenRequest at h
  simp only at h
  split at h
  · cases h
  · cases h
    rfl

/-- The redirect gives the code that it carries. -/
theorem code_of_carriesCode {queryItems : String → Option (List ParsedQueryItem)}
    (hq : DecodesItems queryItems) {url code : String} (h : CarriesCode url code) :
    SceneDelegate.code queryItems url = some code := by
  obtain ⟨query, before, after, hhier, hquery, hw, hitems, hbefore⟩ := h
  unfold SceneDelegate.code
  rw [hq url query _ hhier hquery hw hitems, Option.bind_some, List.find?_append,
    List.find?_eq_none.mpr fun item hitem => by simpa using hbefore item hitem]
  rfl

namespace AuthenticationManager

variable {κ β : Type} {F : Foundation} {keep : UInt8 → Bool} {m : AuthenticationManager κ β}

theorem loginBody_eq (hF : EncodesItems F keep) (code : String) (c : β) :
    m.loginBody F code c = some (plainItems [⟨"grant_type", "authorization_code"⟩, ⟨"code", code⟩,
      ⟨"redirect_uri", redirectURI⟩]) := by
  obtain ⟨u, hu⟩ := F.url_tokenURL_eq
  obtain ⟨request, hq⟩ := F.tokenRequest_eq u [⟨"grant_type", "authorization_code"⟩, ⟨"code", code⟩,
    ⟨"redirect_uri", "spotifycodetest://returnafterlogin"⟩]
  unfold loginBody generateToken
  simp only [hu, hq, Pool.find?_start_next, Option.bind_some, Exchange.httpBody]
  rw [httpBody_tokenRequest hq]
  exact hF.body (by simp)

theorem refreshBody_eq (hF : EncodesItems F keep) (hr : m.isRefreshing = false)
    (hdue : m.shouldRefreshToken = true) {refreshToken : String}
    (htok : m.defaults.refreshToken = some refreshToken) (c : RefreshCompletion κ β) :
    m.refreshBody F c = some (plainItems [⟨"grant_type", "refresh_token"⟩,
      ⟨"refresh_token", refreshToken⟩]) := by
  obtain ⟨u, hu⟩ := F.url_tokenURL_eq
  obtain ⟨request, hq⟩ := F.tokenRequest_eq u [⟨"grant_type", "refresh_token"⟩,
    ⟨"refresh_token", refreshToken⟩]
  unfold refreshBody AuthenticationManager.refreshToken
  rw [if_neg (by simp [hr]), if_neg (by simp [hdue])]
  simp only [htok, hu, hq, Pool.find?_start_next, Option.bind_some, Exchange.httpBody]
  rw [httpBody_tokenRequest hq]
  exact hF.body (by simp)

end AuthenticationManager

/-! ### What is read -/

theorem formSafe_iff (text : String) :
    FormSafe text ↔ 0x26 ∉ utf8 text ∧ formRead (utf8 text) = utf8 text := by
  rw [FormSafe, formRead_eq_self_iff]

theorem parameters_login_iff (code : String) :
    parameters formRead (plainItems [⟨"grant_type", "authorization_code"⟩, ⟨"code", code⟩,
      ⟨"redirect_uri", redirectURI⟩]) =
        [(utf8 "grant_type", utf8 "authorization_code"), (utf8 "code", utf8 code),
          (utf8 "redirect_uri", utf8 redirectURI)] ↔ FormSafe code := by
  have hgrant : parameters formRead (utf8 "grant_type" ++ 0x3D :: utf8 "authorization_code") =
      [(utf8 "grant_type", utf8 "authorization_code")] := by decide +kernel
  have huri : parameters formRead (utf8 "redirect_uri" ++ 0x3D :: utf8 redirectURI) =
      [(utf8 "redirect_uri", utf8 redirectURI)] := by decide +kernel
  have hname : formRead (utf8 "code") = utf8 "code" := by decide
  rw [formSafe_iff, ← parameters_pair_iff formRead (show (0x3D : UInt8) ∉ utf8 "code" by decide) (by decide),
    hname, plainItems_cons, plainItems_cons, plainItems_singleton, parameters_append, parameters_append, hgrant,
    huri]
  constructor
  · exact fun h => (List.append_left_inj [(utf8 "redirect_uri", utf8 redirectURI)]).mp (List.cons.inj h).2
  · exact fun h => by rw [h]; rfl

theorem parameters_refresh_iff (refreshToken : String) :
    parameters formRead (plainItems [⟨"grant_type", "refresh_token"⟩, ⟨"refresh_token", refreshToken⟩]) =
        [(utf8 "grant_type", utf8 "refresh_token"), (utf8 "refresh_token", utf8 refreshToken)] ↔
      FormSafe refreshToken := by
  have hgrant : parameters formRead (utf8 "grant_type" ++ 0x3D :: utf8 "refresh_token") =
      [(utf8 "grant_type", utf8 "refresh_token")] := by decide +kernel
  have hname : formRead (utf8 "refresh_token") = utf8 "refresh_token" := by decide
  rw [formSafe_iff, ← parameters_pair_iff formRead (show (0x3D : UInt8) ∉ utf8 "refresh_token" by decide)
      (by decide), hname, plainItems_cons, plainItems_singleton, parameters_append, hgrant]
  constructor
  · exact fun h => (List.cons.inj h).2
  · exact fun h => by rw [h]; rfl

namespace AuthenticationManager

/-- **What the token endpoint reads.**  The body of a login says that the code is the one the redirect
carried, and the body of a refresh that the refresh token is the stored one, exactly when that text is safe
in form content. -/
theorem token_bodies_iff {κ β : Type} (F : Foundation) (keep : UInt8 → Bool) (hF : EncodesItems F keep)
    (queryItems : String → Option (List ParsedQueryItem)) (hq : DecodesItems queryItems)
    (m : AuthenticationManager κ β) :
    (∀ url code completion, CarriesCode url code → SceneDelegate.code queryItems url = some code ∧
      (m.LoginRecovered F queryItems url code completion ↔ FormSafe code)) ∧
    ∀ refreshToken completion, m.isRefreshing = false → m.shouldRefreshToken = true →
      m.defaults.refreshToken = some refreshToken →
        (m.RefreshRecovered F refreshToken completion ↔ FormSafe refreshToken) := by
  constructor
  · intro url code completion hurl
    have hcode := code_of_carriesCode hq hurl
    refine ⟨hcode, ?_⟩
    rw [← parameters_login_iff]
    constructor
    · rintro ⟨extracted, body, hextracted, hbody, hread⟩
      obtain rfl := Option.some.inj (hcode.symm.trans hextracted)
      rw [loginBody_eq hF] at hbody
      obtain rfl := Option.some.inj hbody
      exact hread
    · exact fun hread => ⟨code, _, hcode, loginBody_eq hF code completion, hread⟩
  · intro refreshToken completion hr hdue htok
    rw [← parameters_refresh_iff]
    constructor
    · rintro ⟨body, hbody, hread⟩
      rw [refreshBody_eq hF hr hdue htok] at hbody
      obtain rfl := Option.some.inj hbody
      exact hread
    · exact fun hread => ⟨_, refreshBody_eq hF hr hdue htok completion, hread⟩

end AuthenticationManager

/-! ### A concrete `URLComponents` -/

/-- The text with the given octets, if there is one. -/
def text (octets : Octets) : Option String := String.fromUTF8? octets.toByteArray

theorem text_utf8 (s : String) : text (utf8 s) = some s := by
  have hbytes : (utf8 s).toByteArray = s.toByteArray := String.utf8Encode_toList
  unfold text String.fromUTF8?
  rw [hbytes, dif_pos s.isValidUTF8]
  rfl

def parseItem (part : Octets) : Option ParsedQueryItem :=
  match (cut 0x3D part).2 with
  | none => (text (decode (cut 0x3D part).1)).map fun name => ⟨name, none⟩
  | some value => (text (decode (cut 0x3D part).1)).bind fun name =>
    (text (decode value)).map fun value => ⟨name, some value⟩

/-- The items of a query, in order, decoded. -/
def parseItems (url : String) : Option (List ParsedQueryItem) :=
  (urlQuery (utf8 url)).bind fun query => (query.splitOn 0x26).mapM parseItem

/-- Foundation with UTF-8 data. -/
def Foundation.forms : Foundation :=
  { Foundation.ascii with
    utf8 := fun s => some (PercentEncoding.utf8 s)
    utf8_credentials := rfl }

/-- What `queryItems` leaves in a name or a value. -/
def isItemOctet (b : UInt8) : Bool := isQueryOctet b && b != 0x26 && b != 0x3D

theorem encodesItems_forms : EncodesItems .forms isItemOctet where
  keep_percent := by decide
  query items _ := by
    refine ⟨_, rfl, ?_⟩
    rw [utf8_intercalate, List.map_map, decode_encodedItems (by decide)]
    unfold plainItems
    congr 1
    refine List.map_congr_left fun item _ => ?_
    simp only [Function.comp_apply, utf8_append, List.append_assoc]
    rfl
  data _ := rfl

theorem parseItem_of_carries {part : Octets} {item : ParsedQueryItem} (h : Carries part item) :
    parseItem part = some item := by
  obtain ⟨name, value⟩ := item
  obtain ⟨hname, hvalue⟩ := h
  simp only at hname hvalue
  unfold parseItem
  rw [hname, text_utf8]
  cases hcut : (cut 0x3D part).2 with
  | none =>
    rw [hcut] at hvalue
    cases value with
    | none => rfl
    | some value => cases hvalue
  | some v =>
    rw [hcut] at hvalue
    cases value with
    | none => cases hvalue
    | some value =>
      have hv : decode v = utf8 value := Option.some.inj hvalue
      simp only [hv, text_utf8, Option.bind_some, Option.map_some]

theorem decodesItems_parseItems : DecodesItems parseItems := by
  intro url query items _ hquery _ hitems
  unfold parseItems
  rw [hquery, Option.bind_some]
  generalize query.splitOn 0x26 = parts at hitems ⊢
  induction hitems with
  | nil => rfl
  | cons hitem _ ih =>
    rw [List.mapM_cons, parseItem_of_carries hitem, ih]
    rfl

namespace AuthenticationManager

/-- The code `AQ/B` comes as `AQ%2FB`, and the endpoint reads it as it was. -/
theorem login_recovered :
    (launch .empty 0 : AuthenticationManager ℕ ℕ).LoginRecovered .forms parseItems
      "spotifycodetest://returnafterlogin?state=1&code=AQ%2FB" "AQ/B" 1 ∧
    (launch ⟨some "old", some "AQ/r", some 0, none⟩ 1000 : AuthenticationManager ℕ ℕ).RefreshRecovered
      .forms "AQ/r" (.caller 1) := by
  have hcarries : CarriesCode "spotifycodetest://returnafterlogin?state=1&code=AQ%2FB" "AQ/B" := by
    refine ⟨utf8 "state=1&code=AQ%2FB", [⟨"state", some "1"⟩], [], by decide +kernel, by decide +kernel,
      by decide +kernel, ?_, by decide⟩
    rw [show (utf8 "state=1&code=AQ%2FB").splitOn 0x26 = [utf8 "state=1", utf8 "code=AQ%2FB"] by
      decide +kernel]
    exact .cons ⟨by decide +kernel, by decide +kernel⟩
      (.cons ⟨by decide +kernel, by decide +kernel⟩ .nil)
  have hsafe : ∀ text, 0x25 ∉ utf8 text → 0x26 ∉ utf8 text → 0x2B ∉ utf8 text → FormSafe text := by
    rintro text hpercent hamp hplus
    refine ⟨hamp, hplus, ?_⟩
    rintro ⟨before, a, b, c, after, hs, ht⟩
    obtain ⟨v, hv⟩ := Option.ne_none_iff_exists'.mp ht
    obtain ⟨rfl, -⟩ := triplet_eq_some hv
    exact hpercent (by rw [hs]; simp)
  exact ⟨((token_bodies_iff .forms isItemOctet encodesItems_forms parseItems decodesItems_parseItems _).1
      _ _ 1 hcarries).2.mpr (hsafe _ (by decide) (by decide) (by decide)),
    ((token_bodies_iff .forms isItemOctet encodesItems_forms parseItems decodesItems_parseItems _).2
      _ (.caller 1) rfl (by decide +kernel) rfl).mpr (hsafe _ (by decide) (by decide) (by decide))⟩

/-- The code `a+b` is read as `a b`, and the refresh token `r&t` as `r`, with another parameter. -/
theorem plus_and_ampersand_lost :
    EncodesItems .forms isItemOctet ∧ DecodesItems parseItems ∧
    CarriesCode "spotifycodetest://returnafterlogin?code=a%2Bb" "a+b" ∧
    ¬ (launch .empty 0 : AuthenticationManager ℕ ℕ).LoginRecovered .forms parseItems
      "spotifycodetest://returnafterlogin?code=a%2Bb" "a+b" 1 ∧
    ¬ (launch ⟨some "old", some "r&t", some 0, none⟩ 1000 : AuthenticationManager ℕ ℕ).RefreshRecovered
      .forms "r&t" (.caller 1) := by
  have hcarries : CarriesCode "spotifycodetest://returnafterlogin?code=a%2Bb" "a+b" := by
    refine ⟨utf8 "code=a%2Bb", [], [], by decide +kernel, by decide +kernel, by decide +kernel, ?_,
      fun item hitem => absurd hitem List.not_mem_nil⟩
    rw [show (utf8 "code=a%2Bb").splitOn 0x26 = [utf8 "code=a%2Bb"] by decide +kernel]
    exact .cons ⟨by decide +kernel, by decide +kernel⟩ .nil
  refine ⟨encodesItems_forms, decodesItems_parseItems, hcarries, ?_, ?_⟩
  · rintro ⟨extracted, body, hextracted, hbody, hread⟩
    obtain rfl := Option.some.inj ((code_of_carriesCode decodesItems_parseItems hcarries).symm.trans hextracted)
    rw [loginBody_eq encodesItems_forms] at hbody
    obtain rfl := Option.some.inj hbody
    exact absurd ((parameters_login_iff _).mp hread).2.1 (by decide)
  · rintro ⟨body, hbody, hread⟩
    rw [refreshBody_eq encodesItems_forms rfl (by decide +kernel) rfl] at hbody
    obtain rfl := Option.some.inj hbody
    exact absurd ((parameters_refresh_iff _).mp hread).1 (by decide)

end AuthenticationManager

end Spotify
