import Mathlib.Data.List.Perm.Basic
import Mathlib.Data.List.Nodup

/-!
# Spotify.Lib.Pool — operations in flight, each under an identifier never used before

A `Pool α` holds the operations that were started and have not finished, oldest first.  `start` gives
the next identifier, `finish` forgets an operation, `update` changes its record.  The fields `lt_next`
and `nodup` make identifiers fresh and unique in every pool that can be built, so that no lemma about
a client has to carry them.
-/

/-- Operations in flight. -/
structure Pool (α : Type*) where
  next : ℕ
  items : List (ℕ × α)
  lt_next : ∀ x ∈ items, x.1 < next
  nodup : (items.map Prod.fst).Nodup
  deriving DecidableEq

namespace Pool

variable {α : Type*}

def empty : Pool α := ⟨0, [], by simp, by simp⟩

/-- Start an operation, under the identifier `p.next`. -/
def start (p : Pool α) (a : α) : Pool α where
  next := p.next + 1
  items := p.items ++ [(p.next, a)]
  lt_next := by
    intro x hx
    rcases List.mem_append.mp hx with h | h
    · exact Nat.lt_succ_of_lt (p.lt_next x h)
    · rw [List.mem_singleton.mp h]
      exact Nat.lt_succ_self _
  nodup := by
    rw [List.map_append, List.nodup_append]
    refine ⟨p.nodup, by simp, fun i hi j hj => ?_⟩
    obtain ⟨x, hx, rfl⟩ := List.mem_map.mp hi
    have := p.lt_next x hx
    simp only [List.map_cons, List.map_nil, List.mem_singleton] at hj
    omega

/-- Forget the operation `id`. -/
def finish (p : Pool α) (id : ℕ) : Pool α where
  next := p.next
  items := p.items.filter (fun x => x.1 ≠ id)
  lt_next := fun x hx => p.lt_next x (List.mem_filter.mp hx).1
  nodup := p.nodup.sublist (List.filter_sublist.map Prod.fst)

theorem map_fst_update (items : List (ℕ × α)) (id : ℕ) (f : α → α) :
    (items.map fun x => if x.1 = id then (x.1, f x.2) else x).map Prod.fst = items.map Prod.fst := by
  rw [List.map_map]
  refine List.map_congr_left fun x _ => ?_
  by_cases h : x.1 = id <;> simp [h]

/-- Change the record of the operation `id`. -/
def update (p : Pool α) (id : ℕ) (f : α → α) : Pool α where
  next := p.next
  items := p.items.map fun x => if x.1 = id then (x.1, f x.2) else x
  lt_next := by
    intro x hx
    obtain ⟨y, hy, rfl⟩ := List.mem_map.mp hx
    have := p.lt_next y hy
    by_cases h : y.1 = id <;> simpa [h] using this
  nodup := by rw [map_fst_update]; exact p.nodup

/-- The operation in flight under `id`. -/
def find? (p : Pool α) (id : ℕ) : Option α := p.items.lookup id

/-- How many operations in flight satisfy `q`. -/
def count (p : Pool α) (q : α → Bool) : ℕ := p.items.countP fun x => q x.2

/-- What `f` finds in the operations in flight, oldest first. -/
def collect {γ : Type*} (p : Pool α) (f : α → Option γ) : List γ := p.items.filterMap fun x => f x.2

variable {p : Pool α}

@[simp] theorem next_start (a : α) : (p.start a).next = p.next + 1 := rfl
@[simp] theorem items_start (a : α) : (p.start a).items = p.items ++ [(p.next, a)] := rfl

/-! ### Looking up -/

theorem find?_eq_some {id : ℕ} {a : α} : p.find? id = some a ↔ (id, a) ∈ p.items := by
  unfold find?
  constructor
  · intro h
    obtain ⟨l₁, l₂, h, -⟩ := List.lookup_eq_some_iff.mp h
    rw [h]
    simp
  · intro h
    obtain ⟨l₁, l₂, h⟩ := List.append_of_mem h
    refine List.lookup_eq_some_iff.mpr ⟨l₁, l₂, h, fun x hx => ?_⟩
    have hnd := p.nodup
    rw [h, List.map_append, List.nodup_append] at hnd
    have hne : x.1 ≠ id := hnd.2.2 x.1 (List.mem_map_of_mem hx) id (by simp)
    simpa using fun h => hne h.symm

theorem find?_lt {id : ℕ} {a : α} (h : p.find? id = some a) : id < p.next :=
  p.lt_next (id, a) (find?_eq_some.mp h)

theorem find?_next : p.find? p.next = none := by
  cases h : p.find? p.next with
  | none => rfl
  | some a => exact absurd (find?_lt h) (Nat.lt_irrefl _)

theorem find?_start (a : α) (id : ℕ) :
    (p.start a).find? id = if id = p.next then some a else p.find? id := by
  ext b
  rw [find?_eq_some, items_start, List.mem_append, List.mem_singleton, Prod.mk.injEq]
  by_cases h : id = p.next
  · subst h
    have hno : (p.next, b) ∉ p.items := fun hb => Nat.lt_irrefl _ (p.lt_next _ hb)
    simp [hno, eq_comm]
  · simp [h, find?_eq_some]

theorem find?_finish (id id' : ℕ) :
    (p.finish id).find? id' = if id' = id then none else p.find? id' := by
  ext b
  rw [find?_eq_some]
  by_cases h : id' = id <;> simp [finish, h, find?_eq_some]

theorem find?_update (id : ℕ) (f : α → α) (id' : ℕ) :
    (p.update id f).find? id' = if id' = id then (p.find? id').map f else p.find? id' := by
  ext b
  rw [find?_eq_some]
  simp only [update, List.mem_map, Prod.exists]
  by_cases h : id' = id
  · subst h
    simp only [if_true, Option.map_eq_some_iff, find?_eq_some]
    constructor
    · rintro ⟨i, a, ha, hia⟩
      by_cases hi : i = id'
      · subst hi
        simp only [if_true, Prod.mk.injEq, true_and] at hia
        exact ⟨a, ha, hia⟩
      · rw [if_neg hi] at hia
        exact absurd (congrArg Prod.fst hia) hi
    · rintro ⟨a, ha, rfl⟩
      exact ⟨id', a, ha, by simp⟩
  · simp only [h, if_false, find?_eq_some]
    constructor
    · rintro ⟨i, a, ha, hia⟩
      by_cases hi : i = id
      · simp only [hi, if_true, Prod.mk.injEq] at hia
        exact absurd hia.1.symm h
      · simp only [hi, if_false, Prod.mk.injEq] at hia
        obtain ⟨rfl, rfl⟩ := hia
        exact ha
    · intro hb
      exact ⟨id', b, hb, by simp [h]⟩

@[simp] theorem find?_start_next (a : α) : (p.start a).find? p.next = some a := by
  rw [find?_start, if_pos rfl]

theorem find?_start_of_ne {a : α} {id : ℕ} (h : id ≠ p.next) : (p.start a).find? id = p.find? id := by
  rw [find?_start, if_neg h]

theorem find?_start_of_some {a b : α} {id : ℕ} (h : p.find? id = some b) :
    (p.start a).find? id = some b := by
  rw [find?_start_of_ne (Nat.ne_of_lt (find?_lt h)), h]

theorem find?_finish_eq_some {id id' : ℕ} {a : α} :
    (p.finish id).find? id' = some a ↔ id' ≠ id ∧ p.find? id' = some a := by
  rw [find?_finish]
  by_cases h : id' = id <;> simp [h]

/-- `id` was given out, and its operation has finished. -/
def Gone (p : Pool α) (id : ℕ) : Prop := id < p.next ∧ p.find? id = none

theorem Gone.start {id : ℕ} (h : p.Gone id) (a : α) : (p.start a).Gone id :=
  ⟨Nat.lt_succ_of_lt h.1, by rw [find?_start_of_ne (Nat.ne_of_lt h.1), h.2]⟩

theorem Gone.update {id : ℕ} (h : p.Gone id) (id' : ℕ) (f : α → α) : (p.update id' f).Gone id :=
  ⟨h.1, by rw [find?_update, h.2, Option.map_none, ite_self]⟩

theorem Gone.finish {id : ℕ} (h : p.Gone id) (id' : ℕ) : (p.finish id').Gone id :=
  ⟨h.1, by rw [find?_finish, h.2, ite_self]⟩

theorem gone_finish {id : ℕ} {a : α} (h : p.find? id = some a) : (p.finish id).Gone id :=
  ⟨find?_lt (p := p) h, by rw [find?_finish, if_pos rfl]⟩

theorem gone_start_iff {id : ℕ} {a : α} : (p.start a).Gone id ↔ p.Gone id := by
  refine ⟨fun h => ?_, fun h => h.start a⟩
  have hne : id ≠ p.next := by
    rintro rfl
    have hnone := h.2
    rw [find?_start_next] at hnone
    cases hnone
  have hlt : id < p.next + 1 := h.1
  exact ⟨by omega, by rw [← find?_start_of_ne hne, h.2]⟩

theorem gone_update_iff {id id' : ℕ} {f : α → α} : (p.update id' f).Gone id ↔ p.Gone id := by
  refine ⟨fun h => ⟨h.1, ?_⟩, fun h => h.update id' f⟩
  have hnone := h.2
  rw [find?_update] at hnone
  split at hnone
  · exact Option.map_eq_none_iff.mp hnone
  · exact hnone

theorem gone_finish_iff {id id' : ℕ} {a : α} (h : p.find? id' = some a) :
    (p.finish id').Gone id ↔ id = id' ∨ p.Gone id := by
  constructor
  · rintro ⟨hlt, hnone⟩
    by_cases hid : id = id'
    · exact .inl hid
    · rw [find?_finish, if_neg hid] at hnone
      exact .inr ⟨hlt, hnone⟩
  · rintro (rfl | hgone)
    · exact gone_finish h
    · exact hgone.finish id'

/-! ### Counting -/

/-- What finishing an operation removes. -/
theorem perm_finish {id : ℕ} {a : α} (h : p.find? id = some a) :
    p.items.Perm ((id, a) :: (p.finish id).items) := by
  have hnd : p.items.Nodup := List.Nodup.of_map _ p.nodup
  have hmem := find?_eq_some.mp h
  refine (List.perm_ext_iff_of_nodup hnd ?_).mpr fun x => ?_
  · refine List.nodup_cons.mpr ⟨?_, hnd.sublist List.filter_sublist⟩
    simp [finish]
  · rw [List.mem_cons]
    constructor
    · intro hx
      by_cases hid : x.1 = id
      · left
        have hx' : (x.1, x.2) ∈ p.items := hx
        rw [hid] at hx'
        have := Option.some.inj ((find?_eq_some.mpr hx').symm.trans h)
        rw [← hid, ← this]
      · right
        exact List.mem_filter.mpr ⟨hx, by simpa using hid⟩
    · rintro (rfl | hx)
      · exact hmem
      · exact (List.mem_filter.mp hx).1

section Collect

variable {γ : Type*} (f : α → Option γ)

theorem collect_start (a : α) : (p.start a).collect f = p.collect f ++ (f a).toList := by
  simp only [collect, items_start, List.filterMap_append, List.filterMap_cons, List.filterMap_nil]
  cases f a <;> rfl

theorem collect_update {id : ℕ} {g : α → α} (hg : ∀ a, f (g a) = f a) :
    (p.update id g).collect f = p.collect f := by
  simp only [collect, update, List.filterMap_map]
  refine List.filterMap_congr fun x _ => ?_
  by_cases h : x.1 = id <;> simp [h, hg]

theorem mem_collect {c : γ} : c ∈ p.collect f ↔ ∃ id a, p.find? id = some a ∧ f a = some c := by
  simp only [collect, List.mem_filterMap, Prod.exists, find?_eq_some]

theorem perm_collect_finish {id : ℕ} {a : α} (h : p.find? id = some a) :
    (p.collect f).Perm ((f a).toList ++ (p.finish id).collect f) := by
  have hp := (perm_finish h).filterMap fun x => f x.2
  rw [List.filterMap_cons] at hp
  unfold collect
  cases ha : f a <;> simpa [ha] using hp

end Collect

theorem count_start (q : α → Bool) (a : α) :
    (p.start a).count q = p.count q + if q a then 1 else 0 := by
  simp [count, List.countP_append, List.countP_cons]

theorem count_finish (q : α → Bool) {id : ℕ} {a : α} (h : p.find? id = some a) :
    p.count q = (p.finish id).count q + if q a then 1 else 0 := by
  unfold count
  rw [(perm_finish h).countP_eq, List.countP_cons]

theorem count_pos {q : α → Bool} {id : ℕ} {a : α} (h : p.find? id = some a) (hq : q a = true) :
    0 < p.count q := by
  rw [count_finish q h, if_pos hq]
  omega

theorem count_eq_zero {q : α → Bool} (h : ∀ id a, p.find? id = some a → q a = false) :
    p.count q = 0 := by
  refine List.countP_eq_zero.mpr fun x hx hq => ?_
  rw [h x.1 x.2 (find?_eq_some.mpr hx)] at hq
  cases hq

theorem count_eq_one {q : α → Bool} {id : ℕ} {a : α} (h : p.find? id = some a) (hq : q a = true)
    (huniq : ∀ id' b, p.find? id' = some b → q b = true → id' = id) : p.count q = 1 := by
  rw [count_finish q h, if_pos hq, count_eq_zero]
  intro id' b hb
  obtain ⟨hne, hb⟩ := find?_finish_eq_some.mp hb
  by_contra hqb
  exact hne (huniq id' b hb (by simpa using hqb))

/-- With at most one operation of a kind in flight, its identifier is determined. -/
theorem find?_unique {q : α → Bool} (h1 : p.count q ≤ 1) {id id' : ℕ} {a b : α}
    (h : p.find? id = some a) (h' : p.find? id' = some b) (ha : q a = true) (hb : q b = true) :
    id = id' := by
  by_contra hne
  have hb' : (p.finish id).find? id' = some b := find?_finish_eq_some.mpr ⟨fun e => hne e.symm, h'⟩
  have := count_pos hb' hb
  rw [count_finish q h, if_pos ha] at h1
  omega

/-! ### Forgetting all operations -/

/-- Forget all operations; their identifiers are not given out again. -/
def clear (p : Pool α) : Pool α := ⟨p.next, [], by simp, by simp⟩

theorem items_finish_of_none {id : ℕ} (h : p.find? id = none) : (p.finish id).items = p.items := by
  refine List.filter_eq_self.mpr fun x hx => ?_
  have hne : x.1 ≠ id := by
    rintro rfl
    rw [find?_eq_some.mpr hx] at h
    cases h
  simpa using hne

end Pool
