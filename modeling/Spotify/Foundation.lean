import Mathlib.Algebra.Order.Ring.Rat

/-!
# Spotify.Foundation — what the app takes from Foundation

Dates, URLs and requests, and the record `Foundation` of the library calls that the app makes on
strings.  The calls are parameters; the two fields that are propositions say what the source relies on
when it unwraps the results for its own constants.  `Foundation.ascii` is a concrete instance.
-/

namespace Spotify

/-- An instant, in seconds since the reference date; a `TimeInterval` is a number of seconds.  Both are a `Double`
in the source, whose rounding is not modelled: the code adds whole seconds to readings of `Date()`, and such a
sum is exact where both lie between 2^29 and 2^30 seconds, in the years 2018 to 2034. -/
abbrev Date := ℚ

abbrev TimeInterval := ℚ

abbrev Data := List UInt8

structure URL where
  absoluteString : String
  deriving DecidableEq

structure URLQueryItem where
  name : String
  value : String
  deriving DecidableEq

structure URLRequest where
  url : URL
  httpMethod : String
  httpBody : Option Data
  allHTTPHeaderFields : List (String × String)
  /-- `none` when the default is left in place. -/
  timeoutInterval : Option TimeInterval
  deriving DecidableEq

/-- How a data task ends, as its handler tells the cases apart. -/
inductive Outcome (α : Type) where
  /-- no data, or an error -/
  | networkError
  /-- a body that does not decode; `text` is the body as UTF-8 text, if it is such -/
  | undecodable (text : Option String)
  | decoded (result : α)
  deriving DecidableEq

namespace Constants

/-! The constants of `AuthenticationManager.Constants` and `APIClient.Constants`. -/

def clientId := "e95850cd94094e7d83386c65ad4bfdeb"
def clientSecretId := "6232b7cfe9234e6caa579c588f741217"
def tokenURL := "https://accounts.spotify.com/api/token"
def baseUrl := "https://api.spotify.com/v1"

end Constants

/-- The Foundation calls of the app. -/
structure Foundation where
  /-- `URL(string:)` -/
  url : String → Option URL
  /-- `data(using: .utf8)` -/
  utf8 : String → Option Data
  /-- `base64EncodedString()` -/
  base64EncodedString : Data → String
  /-- `query` of a `URLComponents` whose `queryItems` were set -/
  query : List URLQueryItem → Option String
  url_tokenURL : (url Constants.tokenURL).isSome
  utf8_credentials : (utf8 (Constants.clientId ++ ":" ++ Constants.clientSecretId)).isSome

/-! ### A concrete instance -/

/-- The characters of RFC 3986, `%` included. -/
def isURLChar (c : Char) : Bool :=
  c.isAlphanum || "-._~:/?#[]@!$&'()*+,;=%".toList.contains c

def base64Digit (n : ℕ) : Char :=
  if n < 26 then Char.ofNat (65 + n)
  else if n < 52 then Char.ofNat (97 + (n - 26))
  else if n < 62 then Char.ofNat (48 + (n - 52))
  else if n = 62 then '+' else '/'

/-- Base64 of a byte list, three bytes at a time, padded with `=`. -/
def base64Chars : Data → List Char
  | [] => []
  | [a] => [base64Digit (a.toNat / 4), base64Digit (a.toNat % 4 * 16), '=', '=']
  | [a, b] => [base64Digit (a.toNat / 4), base64Digit (a.toNat % 4 * 16 + b.toNat / 16),
      base64Digit (b.toNat % 16 * 4), '=']
  | a :: b :: c :: rest => base64Digit (a.toNat / 4) :: base64Digit (a.toNat % 4 * 16 + b.toNat / 16) ::
      base64Digit (b.toNat % 16 * 4 + c.toNat / 64) :: base64Digit (c.toNat % 64) :: base64Chars rest

/-- Foundation for strings made of URL characters: a string with another character, and the empty
string, is no URL; `query` is the text of the items with their percent-encoding removed. -/
def Foundation.ascii : Foundation where
  url s := if s.toList ≠ [] ∧ s.toList.all isURLChar then some ⟨s⟩ else none
  utf8 s := some s.toUTF8.toList
  base64EncodedString d := String.ofList (base64Chars d)
  query items := some ("&".intercalate (items.map fun i => i.name ++ "=" ++ i.value))
  url_tokenURL := by decide
  utf8_credentials := rfl

example : base64Chars [77, 97, 110, 77] = "TWFuTQ==".toList := by decide

end Spotify
