import Spotify.Auth.SingleFlight

/-!
# Spotify.Auth.Signout — what can come back after a sign-out

`signout` clears the token keys but leaves the exchanges in flight alone, and both kinds of exchange write
the store through `cacheToken` when they succeed.  An exchange in flight at the sign-out is recognised by
its identifier, which is below `tasks.next` at that moment.  Without a success of such an exchange the
sign-out is final: nothing but a login started afterwards can start a new session (`signout_final`).
-/

namespace Spotify.AuthenticationManager

variable {κ β : Type} {F : Foundation} {m m' : AuthenticationManager κ β}

/-- A decoded answer of an exchange started before `n`. -/
def StaleSuccess (n : ℕ) (l : AuthLabel κ β) : Prop := ∃ id r, l = .response id (.decoded r) ∧ id < n

/-- A decoded answer of a `generateToken` exchange started from `n` on. -/
def LoginSuccess (n : ℕ) (m : AuthenticationManager κ β) (l : AuthLabel κ β) : Prop :=
  ∃ id r q c, l = .response id (.decoded r) ∧ n ≤ id ∧ m.tasks.find? id = some (.generateToken q c)

/-- The run `ls` from `m`, the state that a sign-out left, does not undo it: the tokens are absent until
a login started afterwards succeeds, and no answer of an exchange that was in flight writes the store. -/
structure SignoutFinal (F : Foundation) (m : AuthenticationManager κ β) (ls : List (AuthLabel κ β)) :
    Prop where
  absent : ∀ p u, p <+: ls → Runs.exec (next F) m p = some u →
    Runs.EachStep (next F) (fun u l _ => ¬ LoginSuccess m.tasks.next u l) m p → u.defaults.SignedOut
  untouched : Runs.EachStep (next F) (fun u l u' => ∀ id o, l = .response id o → id < m.tasks.next →
    u'.defaults = u.defaults) m ls

/-- Signed out, and every exchange started from `n` on is a login. -/
def Cleared (n : ℕ) (m : AuthenticationManager κ β) : Prop :=
  m.defaults.SignedOut ∧ ∀ id ex, m.tasks.find? id = some ex → n ≤ id → ex.isRefresh = false

theorem cleared_signout (c : β) : Cleared m.tasks.next (m.signout c).1 :=
  ⟨UserDefaults.signedOut_signout, fun _ _ hid hn => absurd (Pool.find?_lt hid) (Nat.not_lt.mpr hn)⟩

/-- Without a token nobody can start a refresh, so only a login can end the signed-out state. -/
theorem Cleared.effect {n : ℕ} {l : AuthLabel κ β} {out : List (Call κ β)} (h : Cleared n m)
    (hlogin : ¬ LoginSuccess n m l) (hstale : ¬ StaleSuccess n l) (he : Effect m l m' out) :
    Cleared n m' := by
  obtain ⟨hd, hex⟩ := h
  cases he with
  | loginStarted code c request =>
    refine ⟨hd, fun id ex hid hn => ?_⟩
    rw [Pool.find?_start] at hid
    split at hid
    · cases hid
      rfl
    · exact hex id ex hid hn
  | refreshStarted _ _ _ _ _ _ htok => exact absurd hd.2.1 htok
  | refreshReturned | queued | delivered | dropped | ticked => exact ⟨hd, hex⟩
  | signedOut c => exact ⟨UserDefaults.signedOut_signout, hex⟩
  | loginFailed | refreshFailed =>
    exact ⟨hd, fun id ex hid => hex id ex (Pool.find?_finish_eq_some.mp hid).2⟩
  | loginSucceeded id r q c hid =>
    have hn : n ≤ id := Nat.not_lt.mp fun hlt => hstale ⟨id, r, rfl, hlt⟩
    exact absurd ⟨id, r, q, c, rfl, hn, hid⟩ hlogin
  | refreshSucceeded id r q c hid =>
    have hn : n ≤ id := Nat.not_lt.mp fun hlt => hstale ⟨id, r, rfl, hlt⟩
    exact absurd (hex id _ hid hn) (by simp)

/-- Until a login succeeds, the tokens stay absent exactly as long as no exchange that was in flight
succeeds. -/
theorem always_signedOut_iff {n : ℕ} {ls : List (AuthLabel κ β)} (h : Cleared n m)
    (hlogin : Runs.EachStep (next F) (fun u l _ => ¬ LoginSuccess n u l) m ls) :
    Runs.Always (next F) (fun u => u.defaults.SignedOut) m ls ↔
      Runs.EachStep (next F) (fun _ l _ => ¬ StaleSuccess n l) m ls := by
  refine Runs.always_iff_eachStep_on (I := Cleared n) (fun _ hI => hI.1) ?_ ?_ h hlogin
  · intro u l u' hI hno hR hl
    obtain ⟨out, he⟩ := next_effect hl
    exact hI.effect hno hR he
  · rintro u l u' - - hl hout ⟨id, r, rfl, -⟩
    obtain ⟨out, he⟩ := next_effect hl
    rw [he.defaults_of_decoded] at hout
    exact UserDefaults.not_signedOut_cacheToken _ _ hout

/-- **When sign-out is final.**  If no exchange that was in flight at the sign-out is answered by a
decodable response, the run after it keeps the sign-out final.  As long as no login started afterwards
has succeeded, that condition is also necessary. -/
theorem signout_final (F : Foundation) (m : AuthenticationManager κ β) (c : β)
    (ls : List (AuthLabel κ β)) :
    (Runs.EachStep (next F) (fun _ l _ => ¬ StaleSuccess m.tasks.next l) (m.signout c).1 ls →
      SignoutFinal F (m.signout c).1 ls) ∧
    (Runs.EachStep (next F) (fun u l _ => ¬ LoginSuccess m.tasks.next u l) (m.signout c).1 ls →
      (SignoutFinal F (m.signout c).1 ls ↔
        Runs.EachStep (next F) (fun _ l _ => ¬ StaleSuccess m.tasks.next l) (m.signout c).1 ls)) := by
  have hfinal : Runs.EachStep (next F) (fun _ l _ => ¬ StaleSuccess m.tasks.next l) (m.signout c).1 ls →
      SignoutFinal F (m.signout c).1 ls := by
    intro hstale
    refine ⟨fun p u hp hu hlogin => ?_, fun p l u u' hp hu hl id o ho hlt => ?_⟩
    · exact ((always_signedOut_iff (cleared_signout c) hlogin).mpr (hstale.take hp)).last hu
    · obtain ⟨out, he⟩ := next_effect hl
      subst ho
      refine he.defaults_of_failed fun r hr => ?_
      subst hr
      exact hstale p _ u u' hp hu hl ⟨id, r, rfl, hlt⟩
  refine ⟨hfinal, fun hlogin => ⟨fun h => ?_, hfinal⟩⟩
  exact (always_signedOut_iff (cleared_signout c) hlogin).mp
    fun p u hp hu => h.absent p u hp hu (hlogin.take hp)

/-- The process of a user who has called `generateToken`, and that of one whose API call has started
a refresh. -/
def loggingIn : AuthenticationManager ℕ ℕ :=
  ((launch UserDefaults.empty 1000).generateToken Foundation.ascii "code" 1).1

def refreshing : AuthenticationManager ℕ ℕ := ((launch dueStore 1000).validateToke Foundation.ascii 1).1

/-- A login in flight at the sign-out fails, the next one succeeds: the sign-out was final. -/
theorem signout_final_failed_login :
    SignoutFinal Foundation.ascii (loggingIn.signout 2).1
      [.response 0 .networkError, .generateToken "later" 3, .response 1 (.decoded freshResponse)] := by
  refine (signout_final Foundation.ascii _ 2 _).1 (Runs.eachStep_of_labels fun l hl => ?_)
  obtain ⟨q, hq⟩ := generateToken_eq (F := Foundation.ascii)
    (m := (launch UserDefaults.empty 1000 : AuthenticationManager ℕ ℕ)) "code" 1
  rintro ⟨id, r, rfl, hlt⟩
  rw [loggingIn, hq] at hlt
  simp [launch, Pool.empty] at hl hlt
  omega

/-- Whatever is in flight at a sign-out: its success undoes the sign-out. -/
theorem not_signoutFinal_of_find? {id : ℕ} {ex : Exchange κ β} (hid : m.tasks.find? id = some ex)
    (c : β) (r : AuthenticationResponse) :
    ¬ SignoutFinal F (m.signout c).1 [.response id (.decoded r)] := by
  have hlt := Pool.find?_lt hid
  have hlogin : Runs.EachStep (next F) (fun u l _ => ¬ LoginSuccess m.tasks.next u l) (m.signout c).1
      [.response id (.decoded r)] := by
    refine Runs.eachStep_cons.mpr fun u _ => ⟨?_, Runs.eachStep_nil⟩
    rintro ⟨id', r', q, c', heq, hn, -⟩
    cases heq
    omega
  obtain ⟨u, hl⟩ : ∃ u, next F (m.signout c).1 (.response id (.decoded r)) = some u := by
    simp only [next, Runs.silent, step, signout, hid, Option.map_some]
    exact ⟨_, rfl⟩
  intro h
  have hall := (always_signedOut_iff (cleared_signout c) hlogin).mp
    fun p v hp hv => h.absent p v hp hv (hlogin.take hp)
  exact (Runs.eachStep_cons.mp hall u hl).1 ⟨id, r, rfl, hlt⟩

/-- Sign out while a login is in flight, or while a refresh is: the late answer brings a session back. -/
theorem late_answer_undoes_signout :
    (Reachable Foundation.ascii loggingIn ∧
      ¬ SignoutFinal Foundation.ascii (loggingIn.signout 2).1 [.response 0 (.decoded freshResponse)]) ∧
    (Reachable Foundation.ascii refreshing ∧
      ¬ SignoutFinal Foundation.ascii (refreshing.signout 2).1
        [.response 0 (.decoded freshResponse)]) := by
  refine ⟨⟨?_, ?_⟩, ?_, ?_⟩
  · exact (Runs.Reachable.of_init ⟨_, _, rfl⟩).tail (l := .generateToken "code" 1) rfl
  · obtain ⟨q, hq⟩ := generateToken_eq (F := Foundation.ascii)
      (m := (launch UserDefaults.empty 1000 : AuthenticationManager ℕ ℕ)) "code" 1
    rw [loggingIn, hq]
    exact not_signoutFinal_of_find? (Pool.find?_start_next _) 2 freshResponse
  · exact (Runs.Reachable.of_init ⟨_, _, rfl⟩).tail (l := .validateToke 1) rfl
  · obtain ⟨q, hq⟩ := refreshToken_of_some (F := Foundation.ascii)
      (m := (launch dueStore 1000 : AuthenticationManager ℕ ℕ)) rfl dueStore_due (by decide)
      (.validateToke 1)
    rw [refreshing, validateToke_of_due (m := launch dueStore 1000) rfl dueStore_due, hq]
    exact not_signoutFinal_of_find? (Pool.find?_start_next _) 2 freshResponse

end Spotify.AuthenticationManager
