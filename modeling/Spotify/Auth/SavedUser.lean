import Spotify.Auth.Manager
import Spotify.Codable

/-!
# Spotify.Auth.SavedUser — the store with the saved user as it is written

`UserDefaults` keeps the saved user as a value; the store keeps what `JSONEncoder` makes of it, and
`getUser` decodes that each time.  Seen through `getUser`, the two stores are the same in every run
(`stored_user_exact`), also when the data was written by another version of the app.
-/

namespace Spotify

open Codec (object)

/-- What the app writes to the store. -/
inductive StoreLabel where
  | cacheToken (result : AuthenticationResponse) (date : Date)
  | signout
  | saveUser (user : UserProfile)
  | clearUser
  deriving DecidableEq

def UserDefaults.write (d : UserDefaults) : StoreLabel → UserDefaults
  | .cacheToken result date => d.cacheToken result date
  | .signout => d.signout
  | .saveUser user => d.saveUser user
  | .clearUser => d.clearUser

/-- The keys of `UserDefaults.standard`, with the data under `user`. -/
structure StoredDefaults where
  accessToken : Option String
  refreshToken : Option String
  expirationDate : Option Date
  user : Option JSON

namespace StoredDefaults

def cacheToken (d : StoredDefaults) (result : AuthenticationResponse) (date : Date) : StoredDefaults :=
  { d with
    accessToken := some result.accessToken
    refreshToken := match result.refreshToken with
      | some refreshToken => some refreshToken
      | none => d.refreshToken
    expirationDate := some (date + result.expiresIn) }

def signout (d : StoredDefaults) : StoredDefaults :=
  { d with accessToken := none, refreshToken := none, expirationDate := none }

def saveUser (d : StoredDefaults) (user : UserProfile) : StoredDefaults :=
  { d with user := some ((object UserProfile.record).encode user) }

def clearUser (d : StoredDefaults) : StoredDefaults := { d with user := none }

def getUser (d : StoredDefaults) : Option UserProfile := d.user.bind (object UserProfile.record).decode

def write (d : StoredDefaults) : StoreLabel → StoredDefaults
  | .cacheToken result date => d.cacheToken result date
  | .signout => d.signout
  | .saveUser user => d.saveUser user
  | .clearUser => d.clearUser

/-- The store as it is read. -/
def read (d : StoredDefaults) : UserDefaults := ⟨d.accessToken, d.refreshToken, d.expirationDate, d.getUser⟩

/-- The numbers of the user that is saved are `Int`s. -/
def Fits : StoreLabel → Prop
  | .saveUser user => UserProfile.record.Fits user
  | _ => True

theorem getUser_saveUser (d : StoredDefaults) {user : UserProfile} (h : UserProfile.record.Fits user) :
    (d.saveUser user).getUser = some user := by
  show Option.bind (some _) _ = _
  rw [Option.bind_some]
  exact (object UserProfile.record).decode_encode user h

theorem read_write (d : StoredDefaults) {l : StoreLabel} (h : Fits l) : (d.write l).read = d.read.write l := by
  cases l with
  | cacheToken | signout | clearUser => rfl
  | saveUser user =>
    show (⟨d.accessToken, d.refreshToken, d.expirationDate, (d.saveUser user).getUser⟩ : UserDefaults) = _
    rw [getUser_saveUser d h]
    rfl

/-- **The saved user comes back.**  Whatever the data in the store is at first, and in whatever order tokens
and users are then written and removed, the app reads the store as if the user itself was kept in it. -/
theorem stored_user_exact (d : StoredDefaults) (ls : List StoreLabel) (h : ∀ l ∈ ls, Fits l) :
    (ls.foldl write d).read = ls.foldl UserDefaults.write d.read := by
  induction ls generalizing d with
  | nil => rfl
  | cons l ls ih =>
    obtain ⟨hl, hls⟩ := List.forall_mem_cons.mp h
    rw [List.foldl_cons, List.foldl_cons, ih (d.write l) hls, read_write d hl]

def pictured : UserProfile :=
  ⟨none, "A", some [("spotify", "https://open.spotify.com/user/a")], "a",
    [⟨some "https://i.scdn.co/image/a", some 64, none⟩]⟩

/-- A user with a picture is saved over data that does not decode, and survives a sign-out. -/
theorem pictured_survives :
    ([.saveUser pictured, .signout].foldl write ⟨some "access", none, none, some .null⟩).read.getUser =
      some pictured := by
  have himage : ImageResponse.record.Fits ⟨some "https://i.scdn.co/image/a", some 64, none⟩ :=
    ⟨fun _ _ => trivial, fun _ h => (by cases h; exact ⟨by decide, by decide⟩), fun _ h => (by cases h)⟩
  have huser : UserProfile.record.Fits pictured := by
    refine ⟨fun _ h => (by cases h), trivial, fun _ _ _ _ => trivial, trivial, fun image h => ?_⟩
    obtain rfl := List.mem_singleton.mp h
    exact himage
  have hfits : ∀ l ∈ ([.saveUser pictured, .signout] : List StoreLabel), Fits l :=
    List.forall_mem_cons.mpr ⟨huser, List.forall_mem_singleton.mpr trivial⟩
  rw [stored_user_exact _ _ hfits]
  rfl

end StoredDefaults

end Spotify
