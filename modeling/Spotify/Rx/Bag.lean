import Spotify.Lib.Pool
import Spotify.Lib.Runs

/-!
# Spotify.Rx.Bag — the observers of a subject

A `Bag` keeps its first element inline, the next ones in an array and the rest in a dictionary, and looks at the
inline one only as long as there was never a second (`_onlyFastPath`).  Keys count up in a `UInt64` and wrap
around.  As long as they have not, a bag is a pool of elements under fresh identifiers, whatever was inserted and
removed in which order (`bag_refines`).
-/

namespace Spotify

structure BagKey where
  rawValue : UInt64
  deriving DecidableEq

def arrayDictionaryMaxSize : ℕ := 30

/-- The dictionary is a list of entries with different keys. -/
structure Bag (T : Type) where
  nextKey : BagKey
  key0 : Option BagKey
  value0 : Option T
  pairs : List (BagKey × T)
  dictionary : Option (List (BagKey × T))
  onlyFastPath : Bool
  deriving DecidableEq

/-- The order in which a dictionary gives its values, which the language leaves open. -/
structure ValueOrder (T : Type) where
  values : List (BagKey × T) → List T
  perm : ∀ dictionary, (values dictionary).Perm (dictionary.map Prod.snd)

/-- A dictionary that gives its values in the order in which they came. -/
def ValueOrder.inserted (T : Type) : ValueOrder T :=
  ⟨fun dictionary => dictionary.map Prod.snd, fun _ => .refl _⟩

inductive BagOp (T : Type) where
  | insert (element : T)
  | removeKey (key : BagKey)
  | removeAll
  deriving DecidableEq

inductive BagResult (T : Type) where
  | key (key : BagKey)
  | removed (element : Option T)
  deriving DecidableEq

namespace Bag

variable {T : Type}

def init : Bag T := ⟨⟨0⟩, none, none, [], none, true⟩

/-- `_dictionary![key] = element` -/
def updateValue (key : BagKey) (element : T) (dictionary : List (BagKey × T)) : List (BagKey × T) :=
  dictionary.eraseP (fun x => x.1 = key) ++ [(key, element)]

def insert (element : T) (b : Bag T) : BagKey × Bag T :=
  let key := b.nextKey
  let b := { b with nextKey := ⟨b.nextKey.rawValue + 1⟩ }
  match b.key0 with
  | none => (key, { b with key0 := some key, value0 := some element })
  | some _ =>
    let b := { b with onlyFastPath := false }
    match b.dictionary with
    | some dictionary => (key, { b with dictionary := some (updateValue key element dictionary) })
    | none =>
      if b.pairs.length < arrayDictionaryMaxSize then (key, { b with pairs := b.pairs ++ [(key, element)] })
      else (key, { b with dictionary := some [(key, element)] })

def count (b : Bag T) : ℕ :=
  (if b.value0.isSome then 1 else 0) + b.pairs.length + (b.dictionary.getD []).length

def removeAll (b : Bag T) : Bag T :=
  { b with key0 := none, value0 := none, pairs := [], dictionary := b.dictionary.map fun _ => [] }

/-- `removeKey`, `none` where `_value0!` traps. -/
def removeKey (key : BagKey) (b : Bag T) : Option (Option T × Bag T) :=
  if b.key0 = some key then
    b.value0.map fun value => (some value, { b with key0 := none, value0 := none })
  else
    match (b.dictionary.getD []).find? fun x => x.1 = key with
    | some existingObject => some (some existingObject.2,
        { b with dictionary := b.dictionary.map fun dictionary => dictionary.eraseP fun x => x.1 = key })
    | none =>
      match b.pairs.find? fun x => x.1 = key with
      | some pair => some (some pair.2, { b with pairs := b.pairs.eraseP fun x => x.1 = key })
      | none => some (none, b)

/-- The elements in the order in which `forEach` passes them to its closure. -/
def forEach (order : ValueOrder T) (b : Bag T) : List T :=
  if b.onlyFastPath then b.value0.toList
  else
    b.value0.toList ++ b.pairs.map Prod.snd ++
      (if 0 < (b.dictionary.getD []).length then order.values (b.dictionary.getD []) else [])

/-- The elements in the order in which `dispatch` calls them. -/
def dispatch (order : ValueOrder T) (b : Bag T) : List T :=
  b.value0.toList ++
    if b.onlyFastPath then []
    else b.pairs.map Prod.snd ++ (b.dictionary.map order.values).getD []

def step (b : Bag T) : BagOp T → Option (Bag T × List (BagResult T))
  | .insert element => some ((b.insert element).2, [.key (b.insert element).1])
  | .removeKey key => (b.removeKey key).map fun r => (r.2, [.removed r.1])
  | .removeAll => some (b.removeAll, [])

/-! ### What the bag holds -/

/-- The entries of all three parts. -/
def entries (b : Bag T) : List (BagKey × T) :=
  (b.key0.bind fun key => b.value0.map fun value => (key, value)).toList ++ b.pairs ++ b.dictionary.getD []

/-- What the operations rely on. -/
structure Valid (b : Bag T) : Prop where
  value0 : b.key0.isSome = b.value0.isSome
  onlyFastPath : b.onlyFastPath = true → b.pairs = [] ∧ b.dictionary = none

variable {b b' : Bag T}

theorem valid_init : Valid (init : Bag T) := ⟨rfl, fun _ => ⟨rfl, rfl⟩⟩

/-- The inline entry, if there is one. -/
theorem Valid.inline (hb : Valid b) :
    (b.key0 = none ∧ b.value0 = none) ∨ ∃ key value, b.key0 = some key ∧ b.value0 = some value := by
  have h := hb.value0
  cases hk : b.key0 with
  | none =>
    rw [hk] at h
    exact .inl ⟨rfl, Option.isNone_iff_eq_none.mp (by simpa using h.symm)⟩
  | some key =>
    rw [hk] at h
    obtain ⟨value, hv⟩ := Option.isSome_iff_exists.mp h.symm
    exact .inr ⟨key, value, rfl, hv⟩

theorem Valid.values (hb : Valid b) : b.entries.map Prod.snd =
    b.value0.toList ++ b.pairs.map Prod.snd ++ (b.dictionary.getD []).map Prod.snd := by
  unfold entries
  rcases hb.inline with ⟨hk, hv⟩ | ⟨key, value, hk, hv⟩ <;> rw [hk, hv] <;> simp

theorem Valid.insert (hb : Valid b) (element : T) (hfresh : ∀ x ∈ b.entries, x.1 ≠ b.nextKey) :
    Valid (b.insert element).2 ∧ (b.insert element).1 = b.nextKey ∧
    (b.insert element).2.nextKey = ⟨b.nextKey.rawValue + 1⟩ ∧
    ((b.insert element).2.entries).Perm (b.entries ++ [(b.nextKey, element)]) := by
  obtain ⟨nextKey, key0, value0, pairs, dictionary, onlyFastPath⟩ := b
  rcases hb.inline with ⟨hk, hv⟩ | ⟨key, value, hk, hv⟩
  · obtain rfl : key0 = none := hk
    obtain rfl : value0 = none := hv
    refine ⟨⟨rfl, hb.onlyFastPath⟩, rfl, rfl, ?_⟩
    simp only [Bag.insert, entries]
    exact (List.perm_append_singleton _ _).symm
  · obtain rfl : key0 = some key := hk
    obtain rfl : value0 = some value := hv
    cases dictionary with
    | some dictionary =>
      have hupdate : updateValue nextKey element dictionary = dictionary ++ [(nextKey, element)] := by
        rw [updateValue, List.eraseP_of_forall_not]
        intro x hx
        have hne : x.1 ≠ nextKey := hfresh x (List.mem_append_right _ hx)
        simpa using hne
      refine ⟨⟨rfl, fun h => by cases h⟩, rfl, rfl, ?_⟩
      simp only [Bag.insert, entries, hupdate]
      simp
    | none =>
      simp only [Bag.insert]
      split
      · refine ⟨⟨rfl, fun h => by cases h⟩, rfl, rfl, ?_⟩
        simp [entries]
      · refine ⟨⟨rfl, fun h => by cases h⟩, rfl, rfl, ?_⟩
        simp [entries]

theorem perm_eraseP {xs : List (BagKey × T)} {key : BagKey} {x : BagKey × T}
    (h : (xs.find? fun x => x.1 = key) = some x) :
    x.1 = key ∧ xs.Perm (x :: xs.eraseP fun x => x.1 = key) := by
  obtain ⟨hx, l₁, l₂, rfl, hno⟩ := List.find?_eq_some_iff_append.mp h
  have hne : ∀ y ∈ l₁, ¬ decide (y.1 = key) = true := by simpa using hno
  refine ⟨by simpa using hx, ?_⟩
  have herase : (l₁ ++ x :: l₂).eraseP (fun y => decide (y.1 = key)) = l₁ ++ l₂ := by
    rw [List.eraseP_append_right _ hne]
    simp [of_decide_eq_true hx]
  rw [herase]
  exact List.perm_middle

/-- Removing a key never traps; it takes one entry out, or finds none. -/
theorem Valid.removeKey (hb : Valid b) (key : BagKey) :
    ∃ r b', b.removeKey key = some (r, b') ∧ Valid b' ∧ b'.nextKey = b.nextKey ∧
      ((∃ element, r = some element ∧ b.entries.Perm ((key, element) :: b'.entries)) ∨
        (r = none ∧ b' = b ∧ ∀ x ∈ b.entries, x.1 ≠ key)) := by
  obtain ⟨nextKey, key0, value0, pairs, dictionary, onlyFastPath⟩ := b
  by_cases hkey : key0 = some key
  · subst hkey
    obtain ⟨value, rfl⟩ : ∃ value, value0 = some value := Option.isSome_iff_exists.mp hb.value0.symm
    refine ⟨_, _, if_pos rfl, ⟨rfl, hb.onlyFastPath⟩, rfl, .inl ⟨value, rfl, ?_⟩⟩
    exact List.Perm.refl _
  · have hhead : ∀ x ∈ (key0.bind fun key => value0.map fun value => (key, value)).toList, x.1 ≠ key := by
      rcases hb.inline with ⟨rfl, rfl⟩ | ⟨key', value, rfl, rfl⟩
      · intro x hx
        cases hx
      · intro x hx
        obtain rfl : x = (key', value) := by simpa using hx
        exact fun h => hkey (congrArg some h)
    unfold Bag.removeKey
    rw [if_neg hkey]
    simp only
    cases hd : (dictionary.getD []).find? fun x => x.1 = key with
    | some x =>
      obtain ⟨rfl, hperm⟩ := perm_eraseP hd
      cases dictionary with
      | none => cases hd
      | some dictionary =>
        refine ⟨some x.2, _, rfl, ⟨hb.value0, fun h => ?_⟩, rfl, .inl ⟨x.2, rfl, ?_⟩⟩
        · cases (hb.onlyFastPath h).2
        · exact (List.Perm.append_left _ hperm).trans List.perm_middle
    | none =>
      cases hp : pairs.find? fun x => x.1 = key with
      | some x =>
        obtain ⟨rfl, hperm⟩ := perm_eraseP hp
        refine ⟨some x.2, _, rfl, ⟨hb.value0, fun h => ?_⟩, rfl, .inl ⟨x.2, rfl, ?_⟩⟩
        · obtain ⟨rfl, hnone⟩ := hb.onlyFastPath h
          cases hp
        · exact ((List.Perm.append_left _ hperm).append_right _).trans (List.perm_middle.append_right _)
      | none =>
        refine ⟨none, _, rfl, hb, rfl, .inr ⟨rfl, rfl, ?_⟩⟩
        intro x hx
        rcases List.mem_append.mp hx with hx | hx
        · rcases List.mem_append.mp hx with hx | hx
          · exact hhead x hx
          · simpa using List.find?_eq_none.mp hp x hx
        · simpa using List.find?_eq_none.mp hd x hx

theorem Valid.removeAll (hb : Valid b) :
    Valid b.removeAll ∧ b.removeAll.nextKey = b.nextKey ∧ b.removeAll.entries = [] := by
  refine ⟨⟨rfl, fun h => ⟨rfl, ?_⟩⟩, rfl, ?_⟩
  · rw [Bag.removeAll, (hb.onlyFastPath h).2, Option.map_none]
  · simp only [entries, Bag.removeAll]
    cases b.dictionary <;> rfl

/-! ### A pool of elements -/

/-- The key of the element that was the `id`-th one to be inserted. -/
def keyOf (id : ℕ) : BagKey := ⟨UInt64.ofNat id⟩

theorem keyOf_inj {i j : ℕ} (hi : i < UInt64.size) (hj : j < UInt64.size) (h : keyOf i = keyOf j) : i = j := by
  have hnat : (UInt64.ofNat i).toNat = (UInt64.ofNat j).toNat := congrArg (fun k => k.rawValue.toNat) h
  rwa [UInt64.toNat_ofNat_of_lt' hi, UInt64.toNat_ofNat_of_lt' hj] at hnat

theorem keyOf_toNat (key : BagKey) : keyOf key.rawValue.toNat = key := by
  rw [keyOf, UInt64.ofNat_toNat]

theorem toNat_keyOf {id : ℕ} (h : id < UInt64.size) : (keyOf id).rawValue.toNat = id :=
  UInt64.toNat_ofNat_of_lt' h

/-- What the bag is for: elements under identifiers that are never given out twice. -/
def poolStep (p : Pool T) : BagOp T → Option (Pool T × List (BagResult T))
  | .insert element => some (p.start element, [.key (keyOf p.next)])
  | .removeKey key => some (p.finish key.rawValue.toNat, [.removed (p.find? key.rawValue.toNat)])
  | .removeAll => some (p.clear, [])

/-- The bag holds the elements of the pool, under keys that have not wrapped around. -/
structure Refines (b : Bag T) (p : Pool T) : Prop where
  valid : Valid b
  nextKey : b.nextKey = keyOf p.next
  entries : b.entries.Perm (p.items.map fun x => (keyOf x.1, x.2))
  bound : p.next ≤ UInt64.size

variable {p : Pool T}

theorem refines_init : Refines (init : Bag T) Pool.empty :=
  ⟨valid_init, rfl, List.Perm.refl _, Nat.zero_le _⟩

theorem Refines.insert (h : Refines b p) (hroom : p.next < UInt64.size) (element : T) :
    (b.insert element).1 = keyOf p.next ∧ Refines (b.insert element).2 (p.start element) := by
  have hfresh : ∀ x ∈ b.entries, x.1 ≠ b.nextKey := by
    intro x hx heq
    obtain ⟨y, hy, rfl⟩ := List.mem_map.mp (h.entries.subset hx)
    have hlt : y.1 < p.next := p.lt_next y hy
    have hsame : y.1 = p.next := keyOf_inj (by omega) hroom (heq.trans h.nextKey)
    omega
  obtain ⟨hvalid, hkey, hnext, hentries⟩ := h.valid.insert element hfresh
  refine ⟨hkey.trans h.nextKey, hvalid, ?_, ?_, hroom⟩
  · rw [hnext, h.nextKey, keyOf, keyOf, Pool.next_start, UInt64.ofNat_add]
    rfl
  · rw [Pool.items_start, List.map_append]
    rw [h.nextKey] at hentries
    exact hentries.trans (h.entries.append_right _)

/-- The identifier of an entry. -/
theorem Refines.find?_of_mem (h : Refines b p) {key : BagKey} {element : T} (hmem : (key, element) ∈ b.entries) :
    p.find? key.rawValue.toNat = some element := by
  obtain ⟨⟨id, element'⟩, hx, heq⟩ := List.mem_map.mp (h.entries.subset hmem)
  obtain ⟨rfl, rfl⟩ := Prod.mk.inj heq
  have hlt : id < p.next := p.lt_next _ hx
  have hid : (keyOf id).rawValue.toNat = id := toNat_keyOf (Nat.lt_of_lt_of_le hlt h.bound)
  rw [hid]
  exact Pool.find?_eq_some.mpr hx

theorem Refines.removeKey (h : Refines b p) (key : BagKey) :
    ∃ b', b.removeKey key = some (p.find? key.rawValue.toNat, b') ∧
      Refines b' (p.finish key.rawValue.toNat) := by
  obtain ⟨r, b', hremove, hvalid, hnext, ⟨element, rfl, hperm⟩ | ⟨rfl, rfl, hno⟩⟩ := h.valid.removeKey key
  · have hfind : p.find? key.rawValue.toNat = some element :=
      h.find?_of_mem (hperm.symm.subset List.mem_cons_self)
    refine ⟨b', hfind ▸ hremove, hvalid, hnext.trans h.nextKey, ?_, h.bound⟩
    have hrest := hperm.symm.trans (h.entries.trans ((Pool.perm_finish hfind).map _))
    rw [List.map_cons, keyOf_toNat] at hrest
    exact hrest.cons_inv
  · have hfind : p.find? key.rawValue.toNat = none := by
      cases hfind : p.find? key.rawValue.toNat with
      | none => rfl
      | some element =>
        have hmem : (key, element) ∈ b'.entries := by
          refine h.entries.symm.subset (List.mem_map.mpr ⟨_, Pool.find?_eq_some.mp hfind, ?_⟩)
          rw [keyOf_toNat]
        exact absurd rfl (hno _ hmem)
    refine ⟨b', hfind ▸ hremove, h.valid, h.nextKey, ?_, h.bound⟩
    rw [Pool.items_finish_of_none hfind]
    exact h.entries

theorem Refines.removeAll (h : Refines b p) : Refines b.removeAll p.clear := by
  obtain ⟨hvalid, hnext, hentries⟩ := h.valid.removeAll
  refine ⟨hvalid, hnext.trans h.nextKey, ?_, h.bound⟩
  rw [hentries]
  exact List.Perm.refl _

/-! ### Enumerating -/

theorem values_nil (order : ValueOrder T) : order.values [] = [] := List.Perm.eq_nil (order.perm [])

/-- The fast path leaves nothing out. -/
theorem Valid.dispatch_eq (hb : Valid b) (order : ValueOrder T) : b.dispatch order =
    b.value0.toList ++ b.pairs.map Prod.snd ++ order.values (b.dictionary.getD []) := by
  unfold dispatch
  split
  · rename_i hfast
    obtain ⟨hpairs, hdictionary⟩ := hb.onlyFastPath hfast
    rw [hpairs, hdictionary, Option.getD_none, values_nil, List.map_nil, List.append_nil, List.append_nil]
  · cases b.dictionary with
    | none => rw [Option.map_none, Option.getD_none, Option.getD_none, values_nil, List.append_assoc]
    | some dictionary => rw [Option.map_some, Option.getD_some, Option.getD_some, List.append_assoc]

theorem Valid.forEach_eq (hb : Valid b) (order : ValueOrder T) : b.forEach order = b.dispatch order := by
  rw [hb.dispatch_eq order]
  unfold forEach
  split
  · rename_i hfast
    obtain ⟨hpairs, hdictionary⟩ := hb.onlyFastPath hfast
    rw [hpairs, hdictionary, Option.getD_none, values_nil, List.map_nil, List.append_nil, List.append_nil]
  · split
    · rfl
    · rename_i hempty
      have hnil : b.dictionary.getD [] = [] := List.length_eq_zero_iff.mp (by omega)
      rw [hnil, values_nil]

theorem Valid.dispatch (hb : Valid b) (order : ValueOrder T) :
    (b.dispatch order).Perm (b.entries.map Prod.snd) := by
  rw [hb.dispatch_eq order, hb.values]
  exact List.Perm.append_left _ (order.perm _)

theorem Refines.dispatch (h : Refines b p) (order : ValueOrder T) :
    (b.dispatch order).Perm (p.items.map Prod.snd) := by
  have hitems := h.entries.map Prod.snd
  rw [List.map_map] at hitems
  exact (h.valid.dispatch order).trans hitems

theorem Refines.count (h : Refines b p) : b.count = p.items.length := by
  have hlength := h.entries.length_eq
  rw [List.length_map] at hlength
  have hvalues : (b.entries.map Prod.snd).length = b.entries.length := List.length_map _
  rw [← hlength, ← hvalues, h.valid.values, Bag.count]
  cases b.value0 with
  | none => simp
  | some value => simp; omega

/-! ### Runs -/

def isInsert : BagOp T → Bool
  | .insert _ => true
  | _ => false

/-- One operation, with the same result. -/
theorem Refines.step (h : Refines b p) {op : BagOp T} (hroom : isInsert op = true → p.next < UInt64.size) :
    ∃ b' p' out, b.step op = some (b', out) ∧ poolStep p op = some (p', out) ∧ Refines b' p' ∧
      p'.next = p.next + if isInsert op then 1 else 0 := by
  cases op with
  | insert element =>
    obtain ⟨hkey, hrefines⟩ := h.insert (hroom rfl) element
    exact ⟨_, _, _, by rw [Bag.step, hkey], rfl, hrefines, rfl⟩
  | removeKey key =>
    obtain ⟨b', hremove, hrefines⟩ := h.removeKey key
    exact ⟨_, _, _, by rw [Bag.step, hremove, Option.map_some], rfl, hrefines, rfl⟩
  | removeAll => exact ⟨_, _, _, rfl, rfl, h.removeAll, rfl⟩

theorem Refines.exec {ls : List (BagOp T)} (h : Refines b p) (hroom : p.next + ls.countP isInsert ≤ UInt64.size)
    (log : List (BagResult T)) : ∃ b' p' log',
      Runs.exec (Runs.logged Bag.step) (b, log) ls = some (b', log') ∧
      Runs.exec (Runs.logged poolStep) (p, log) ls = some (p', log') ∧ Refines b' p' := by
  induction ls generalizing b p log with
  | nil => exact ⟨b, p, log, rfl, rfl, h⟩
  | cons op ls ih =>
    rw [List.countP_cons] at hroom
    have hop : isInsert op = true → p.next < UInt64.size := by
      intro hins
      rw [if_pos hins] at hroom
      omega
    obtain ⟨b₁, p₁, out, hb, hp, h₁, hnext⟩ := h.step hop
    obtain ⟨b', p', log', hb', hp', h'⟩ := ih h₁ (by rw [hnext]; omega) (log ++ out)
    exact ⟨b', p', log', Runs.exec_logged_cons.mpr ⟨_, _, hb, hb'⟩, Runs.exec_logged_cons.mpr ⟨_, _, hp, hp'⟩, h'⟩

/-- **The bag is a pool.**  Whatever was inserted, removed and cleared in which order, no operation traps, the
keys given out and the elements removed are those of a pool with fresh identifiers, and `forEach` and
`dispatch` pass the elements that are left, each once, in whatever order the dictionary has; 2⁶⁴ elements may be
inserted before the keys wrap around. -/
theorem bag_refines (ls : List (BagOp T)) (h : ls.countP isInsert ≤ UInt64.size) : ∃ b p results,
    Runs.exec (Runs.logged step) (init, []) ls = some (b, results) ∧
    Runs.exec (Runs.logged poolStep) (Pool.empty, []) ls = some (p, results) ∧
    b.count = p.items.length ∧
    ∀ order, (b.dispatch order).Perm (p.items.map Prod.snd) ∧ b.forEach order = b.dispatch order := by
  have hroom : (Pool.empty : Pool T).next + ls.countP isInsert ≤ UInt64.size := by
    show 0 + ls.countP isInsert ≤ UInt64.size
    omega
  obtain ⟨b, p, results, hb, hp, hrefines⟩ := refines_init.exec hroom []
  exact ⟨b, p, results, hb, hp, hrefines.count,
    fun order => ⟨hrefines.dispatch order, hrefines.valid.forEach_eq order⟩⟩

/-- Thirty-three elements; the inline one, one of the array and the one of the dictionary are removed. -/
def thirtyThree : List (BagOp ℕ) :=
  (List.range 33).map .insert ++ [.removeKey ⟨0⟩, .removeKey ⟨32⟩, .removeKey ⟨7⟩, .insert 33, .removeKey ⟨7⟩]

theorem thirtyThree_count : ∃ b results,
    Runs.exec (Runs.logged step) (init, []) thirtyThree = some (b, results) ∧ b.count = 31 := by
  obtain ⟨b, p, results, hb, hp, hcount, -⟩ := bag_refines thirtyThree (by decide)
  obtain ⟨⟨p', results'⟩, hp', hlength⟩ : ∃ r,
      Runs.exec (Runs.logged poolStep) (Pool.empty, []) thirtyThree = some r ∧ r.1.items.length = 31 :=
    Runs.exec_of_any (by decide +kernel)
  obtain ⟨rfl, rfl⟩ := Prod.mk.inj (Option.some.inj (hp.symm.trans hp'))
  exact ⟨b, results, hb, hcount.trans hlength⟩

end Bag

end Spotify
