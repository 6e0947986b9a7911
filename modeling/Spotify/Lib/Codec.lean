import Mathlib.Algebra.Order.Ring.Rat
import Mathlib.Data.List.Forall2

/-!
# Spotify.Lib.Codec — values as JSON and back

A `Codec α` encodes values of `α` as JSON and decodes them; its fields say that what is encoded decodes to
itself, for the values that fit.  A `Record α` does so with the members of an object.  It reads them by key, so
the field `decode_congr` says that other members and the order make no difference; `both` puts records with
different keys together.  Nothing here depends on a particular format.
-/

/-- A JSON text once it is parsed. -/
inductive JSON where
  | null
  | bool (value : Bool)
  | number (value : ℚ)
  | string (value : String)
  | array (items : List JSON)
  | object (members : List (String × JSON))

structure Codec (α : Type) where
  encode : α → JSON
  decode : JSON → Option α
  /-- the values that can be encoded -/
  Fits : α → Prop
  decode_encode : ∀ a, Fits a → decode (encode a) = some a
  encode_ne_null : ∀ a, encode a ≠ .null

/-- The members of an object; `keys` are those that are read. -/
structure Record (α : Type) where
  keys : List String
  encode : α → List (String × JSON)
  decode : List (String × JSON) → Option α
  Fits : α → Prop
  mem_keys : ∀ a, ∀ x ∈ encode a, x.1 ∈ keys
  decode_congr : ∀ m m', (∀ k ∈ keys, m.lookup k = m'.lookup k) → decode m = decode m'
  decode_encode : ∀ a, Fits a → decode (encode a) = some a

namespace Codec

variable {α : Type}

def string : Codec String where
  encode := .string
  decode
    | .string value => some value
    | _ => none
  Fits _ := True
  decode_encode _ _ := rfl
  encode_ne_null _ h := by cases h

/-- The integers from `min` to `max`; a number that is none does not decode. -/
def int (min max : Int) : Codec Int where
  encode value := .number value
  decode
    | .number value => if value.den = 1 ∧ min ≤ value.num ∧ value.num ≤ max then some value.num else none
    | _ => none
  Fits value := min ≤ value ∧ value ≤ max
  decode_encode value h := by
    simp only [Rat.den_intCast, Rat.num_intCast]
    exact if_pos ⟨trivial, h⟩
  encode_ne_null _ h := by cases h

/-- A list of encodings decodes when each of its elements does. -/
theorem mapM_eq_some {γ δ : Type} {f : γ → Option δ} {xs : List γ} {ys : List δ} :
    xs.mapM f = some ys ↔ List.Forall₂ (fun x y => f x = some y) xs ys := by
  induction xs generalizing ys with
  | nil => simp [List.forall₂_nil_left_iff, eq_comm]
  | cons x xs ih =>
    rw [List.mapM_cons]
    constructor
    · intro h
      obtain ⟨y, hy, h⟩ := Option.bind_eq_some_iff.mp h
      obtain ⟨ys', hys, h⟩ := Option.bind_eq_some_iff.mp h
      cases h
      exact .cons hy (ih.mp hys)
    · rintro (_ | ⟨hy, hys⟩)
      rw [hy, ih.mpr hys]
      rfl

theorem mapM_eq_none {γ δ : Type} {f : γ → Option δ} {xs : List γ} {x : γ} (hx : x ∈ xs) (h : f x = none) :
    xs.mapM f = none := by
  induction xs with
  | nil => cases hx
  | cons y xs ih =>
    rw [List.mapM_cons]
    rcases List.mem_cons.mp hx with rfl | hx
    · rw [h]
      rfl
    · rw [ih hx]
      cases f y <;> rfl

theorem mapM_decode_encode {γ δ : Type} {f : γ → δ} {g : δ → Option γ} {xs : List γ}
    (h : ∀ x ∈ xs, g (f x) = some x) : (xs.map f).mapM g = some xs := by
  rw [mapM_eq_some, List.forall₂_map_left_iff]
  exact List.forall₂_same.mpr h

def array (c : Codec α) : Codec (List α) where
  encode items := .array (items.map c.encode)
  decode
    | .array items => items.mapM c.decode
    | _ => none
  Fits items := ∀ a ∈ items, c.Fits a
  decode_encode _ h := mapM_decode_encode fun a ha => c.decode_encode a (h a ha)
  encode_ne_null _ h := by cases h

/-- An object whose members all have one type. -/
def dictionary (c : Codec α) : Codec (List (String × α)) where
  encode members := .object (members.map fun x => (x.1, c.encode x.2))
  decode
    | .object members => members.mapM fun x => (c.decode x.2).map fun a => (x.1, a)
    | _ => none
  Fits members := ∀ x ∈ members, c.Fits x.2
  decode_encode _ h := mapM_decode_encode fun x hx => by
    rw [c.decode_encode x.2 (h x hx), Option.map_some]
  encode_ne_null _ h := by cases h

def object (r : Record α) : Codec α where
  encode a := .object (r.encode a)
  decode
    | .object members => r.decode members
    | _ => none
  Fits := r.Fits
  decode_encode := r.decode_encode
  encode_ne_null _ h := by cases h

end Codec

namespace Record

variable {α β : Type}

theorem lookup_eq_none {r : Record α} {k : String} (h : k ∉ r.keys) (a : α) : (r.encode a).lookup k = none := by
  rw [List.lookup_eq_none_iff]
  intro x hx
  have hne : x.1 ≠ k := fun heq => h (heq ▸ r.mem_keys a x hx)
  simpa using fun heq => hne heq.symm

/-- A member that must be there. -/
def required (key : String) (c : Codec α) : Record α where
  keys := [key]
  encode a := [(key, c.encode a)]
  decode m := (m.lookup key).bind c.decode
  Fits := c.Fits
  mem_keys _ x hx := by rw [List.mem_singleton.mp hx]; exact List.mem_singleton_self key
  decode_congr m m' h := by rw [h key (List.mem_singleton_self key)]
  decode_encode a h := by
    rw [List.lookup_cons_self, Option.bind_some, c.decode_encode a h]

/-- A member that may be missing or `null`. -/
def optional (key : String) (c : Codec α) : Record (Option α) where
  keys := [key]
  encode
    | none => []
    | some a => [(key, c.encode a)]
  decode m :=
    match m.lookup key with
    | none => some none
    | some .null => some none
    | some value => (c.decode value).map some
  Fits a := ∀ b, a = some b → c.Fits b
  mem_keys a x hx := by
    cases a with
    | none => cases hx
    | some a => rw [List.mem_singleton.mp hx]; exact List.mem_singleton_self key
  decode_congr m m' h := by rw [h key (List.mem_singleton_self key)]
  decode_encode a h := by
    cases a with
    | none => rfl
    | some a =>
      have hdecode := c.decode_encode a (h a rfl)
      have hnull := c.encode_ne_null a
      rw [List.lookup_cons_self]
      cases hvalue : c.encode a with
      | null => exact absurd hvalue hnull
      | bool | number | string | array | object =>
        rw [hvalue] at hdecode
        simp only [hdecode, Option.map_some]

theorem decode_required {key : String} {c : Codec α} {m : List (String × JSON)} {value : JSON}
    (h : m.lookup key = some value) : (required key c).decode m = c.decode value := by
  show (m.lookup key).bind c.decode = _
  rw [h, Option.bind_some]

theorem decode_required_missing {key : String} {c : Codec α} {m : List (String × JSON)}
    (h : m.lookup key = none) : (required key c).decode m = none := by
  show (m.lookup key).bind c.decode = _
  rw [h, Option.bind_none]

theorem decode_optional {key : String} {c : Codec α} {m : List (String × JSON)} {value : JSON}
    (h : m.lookup key = some value) (hne : value ≠ .null) :
    (optional key c).decode m = (c.decode value).map some := by
  cases value with
  | null => exact absurd rfl hne
  | bool | number | string | array | object => simp only [optional, h]

theorem decode_optional_missing {key : String} {c : Codec α} {m : List (String × JSON)}
    (h : m.lookup key = none ∨ m.lookup key = some .null) : (optional key c).decode m = some none := by
  rcases h with h | h <;> simp only [optional, h]

/-- Two records with different keys. -/
def both (r : Record α) (r' : Record β) (h : ∀ k ∈ r.keys, k ∉ r'.keys) : Record (α × β) where
  keys := r.keys ++ r'.keys
  encode x := r.encode x.1 ++ r'.encode x.2
  decode m := (r.decode m).bind fun a => (r'.decode m).map fun b => (a, b)
  Fits x := r.Fits x.1 ∧ r'.Fits x.2
  mem_keys x y hy := by
    rcases List.mem_append.mp hy with hy | hy
    · exact List.mem_append_left _ (r.mem_keys x.1 y hy)
    · exact List.mem_append_right _ (r'.mem_keys x.2 y hy)
  decode_congr m m' hm := by
    rw [r.decode_congr m m' fun k hk => hm k (List.mem_append_left _ hk),
      r'.decode_congr m m' fun k hk => hm k (List.mem_append_right _ hk)]
  decode_encode x hx := by
    have hl : r.decode (r.encode x.1 ++ r'.encode x.2) = r.decode (r.encode x.1) := by
      refine r.decode_congr _ _ fun k hk => ?_
      rw [List.lookup_append, lookup_eq_none (h k hk), Option.or_none]
    have hr : r'.decode (r.encode x.1 ++ r'.encode x.2) = r'.decode (r'.encode x.2) := by
      refine r'.decode_congr _ _ fun k hk => ?_
      have hno : k ∉ r.keys := fun hmem => h k hmem hk
      rw [List.lookup_append, lookup_eq_none hno, Option.none_or]
    rw [hl, hr, r.decode_encode x.1 hx.1, r'.decode_encode x.2 hx.2]
    rfl

/-- A record under another type. -/
def map (r : Record α) (f : α → β) (g : β → α) (h : ∀ b, f (g b) = b) : Record β where
  keys := r.keys
  encode b := r.encode (g b)
  decode m := (r.decode m).map f
  Fits b := r.Fits (g b)
  mem_keys b := r.mem_keys (g b)
  decode_congr m m' hm := by rw [r.decode_congr m m' hm]
  decode_encode b hb := by rw [r.decode_encode (g b) hb, Option.map_some, h]

theorem decode_both_eq_none {r : Record α} {r' : Record β} {hk : ∀ k ∈ r.keys, k ∉ r'.keys}
    {m : List (String × JSON)} (h : r.decode m = none ∨ r'.decode m = none) :
    (r.both r' hk).decode m = none := by
  show (r.decode m).bind (fun a => (r'.decode m).map fun b => (a, b)) = none
  rcases h with h | h
  · rw [h, Option.bind_none]
  · rw [h]
    cases r.decode m <;> rfl

theorem decode_map_eq_none {r : Record α} {f : α → β} {g : β → α} {hfg : ∀ b, f (g b) = b}
    {m : List (String × JSON)} (h : r.decode m = none) : (r.map f g hfg).decode m = none := by
  show (r.decode m).map f = none
  rw [h, Option.map_none]

end Record
