import Mathlib.Data.List.Basic

/-!
# Spotify.Lib.PercentEncoding — octets, percent-encoding and lists of parameters

Texts are taken as their UTF-8 octets.  `decode` turns each triplet `%XX` into the octet it stands for and
leaves every other octet alone; `WellFormed ok` says that an octet sequence consists of triplets and octets
in `ok`.  Decoding shortens a text by two octets for each triplet, so what it does not shorten it does not
change (`decode_eq_self`, `length_decode_lt`).  Nothing here depends on a particular program.
-/

namespace PercentEncoding

abbrev Octets := List UInt8

/-- The octets of a text. -/
def utf8 (s : String) : Octets := s.toList.flatMap String.utf8EncodeChar

/-- The value of a hexadecimal digit. -/
def hexVal (b : UInt8) : Option UInt8 :=
  if 0x30 ≤ b ∧ b ≤ 0x39 then some (b - 0x30)
  else if 0x41 ≤ b ∧ b ≤ 0x46 then some (b - 0x37)
  else if 0x61 ≤ b ∧ b ≤ 0x66 then some (b - 0x57)
  else none

def hexDigit (n : UInt8) : UInt8 := if n < 10 then 0x30 + n else 0x37 + n

/-- The octet that `%XX` stands for. -/
def triplet (a b c : UInt8) : Option UInt8 :=
  if a = 0x25 then (hexVal b).bind fun x => (hexVal c).map fun y => 16 * x + y else none

/-- Percent-decoding; an octet that starts no triplet stays. -/
def decode : Octets → Octets
  | [] => []
  | [a] => [a]
  | [a, b] => [a, b]
  | a :: b :: c :: rest =>
    match triplet a b c with
    | some v => v :: decode rest
    | none => a :: decode (b :: c :: rest)

/-- A sequence of triplets and octets in `ok`. -/
def WellFormed (ok : UInt8 → Bool) : Octets → Bool
  | [] => true
  | [a] => ok a
  | [a, b] => ok a && ok b
  | a :: b :: c :: rest =>
    match triplet a b c with
    | some _ => WellFormed ok rest
    | none => ok a && WellFormed ok (b :: c :: rest)

/-- Percent-encoding of the octets that are not in `keep`. -/
def encode (keep : UInt8 → Bool) (s : Octets) : Octets :=
  s.flatMap fun b => if keep b then [b] else [0x25, hexDigit (b / 16), hexDigit (b % 16)]

/-- What comes before the first `x`, and what comes after it if there is one. -/
def cut (x : UInt8) : Octets → Octets × Option Octets
  | [] => ([], none)
  | a :: rest => if a = x then ([], some rest) else (a :: (cut x rest).1, (cut x rest).2)

/-- The parameters `name=value` of a text in which `&` separates them, the first `=` ends a name, and both
sides are read by `read`. -/
def parameters (read : Octets → Octets) (s : Octets) : List (Octets × Octets) :=
  (s.splitOn 0x26).map fun p => (read (cut 0x3D p).1, read ((cut 0x3D p).2.getD []))

/-- The two sides of a parameter in `application/x-www-form-urlencoded` content. -/
def formRead (s : Octets) : Octets := decode (s.map fun b => if b = 0x2B then 0x20 else b)

/-- `pchar`, `/` and `?` of RFC 3986, without the percent-encoded ones. -/
def isQueryOctet (b : UInt8) : Bool :=
  (0x30 ≤ b && b ≤ 0x39) || (0x41 ≤ b && b ≤ 0x5A) || (0x61 ≤ b && b ≤ 0x7A) ||
    (utf8 "-._~!$&'()*+,;=:@/?").contains b

/-! The parts of a URL: what comes before query and fragment, and these two. -/

def urlHier (url : Octets) : Octets := (cut 0x3F (cut 0x23 url).1).1
def urlQuery (url : Octets) : Option Octets := (cut 0x3F (cut 0x23 url).1).2
def urlFragment (url : Octets) : Option Octets := (cut 0x23 url).2

/-! ### Cutting and splitting -/

theorem cut_of_not_mem {x : UInt8} {s : Octets} (h : x ∉ s) : cut x s = (s, none) := by
  induction s with
  | nil => rfl
  | cons a s ih =>
    obtain ⟨ha, hs⟩ := not_or.mp (mt List.mem_cons.mpr h)
    rw [cut, if_neg fun he => ha he.symm, ih hs]

theorem cut_append_cons {x : UInt8} {s : Octets} (h : x ∉ s) (t : Octets) :
    cut x (s ++ x :: t) = (s, some t) := by
  induction s with
  | nil => rw [List.nil_append, cut, if_pos rfl]
  | cons a s ih =>
    obtain ⟨ha, hs⟩ := not_or.mp (mt List.mem_cons.mpr h)
    rw [List.cons_append, cut, if_neg fun he => ha he.symm, ih hs]

theorem cut_eq_none {x : UInt8} {s : Octets} : (cut x s).2 = none ↔ x ∉ s := by
  refine ⟨fun h hx => ?_, fun h => by rw [cut_of_not_mem h]⟩
  obtain ⟨u, v, rfl, hu⟩ := List.eq_append_cons_of_mem hx
  rw [cut_append_cons hu] at h
  cases h

theorem length_splitOn (x : UInt8) (s : Octets) : (s.splitOn x).length = s.count x + 1 := by
  induction s with
  | nil => rfl
  | cons a s ih =>
    rw [List.splitOn_cons_eq_if_modifyHead]
    by_cases ha : a = x
    · rw [if_pos (by simp [ha]), List.length_cons, ih, ha, List.count_cons_self]
    · rw [if_neg (by simp [ha]), List.length_modifyHead, ih, List.count_cons_of_ne ha]

theorem length_parameters (read : Octets → Octets) (s : Octets) :
    (parameters read s).length = s.count 0x26 + 1 := by
  rw [parameters, List.length_map, length_splitOn]

theorem parameters_append (read : Octets → Octets) (s t : Octets) :
    parameters read (s ++ 0x26 :: t) = parameters read s ++ parameters read t := by
  rw [parameters, List.splitOn_append_cons_self, List.map_append]
  rfl

theorem parameters_pair (read : Octets → Octets) {name value : Octets} (hname : 0x3D ∉ name)
    (hn : 0x26 ∉ name) (hv : 0x26 ∉ value) :
    parameters read (name ++ 0x3D :: value) = [(read name, read value)] := by
  have hno : (0x26 : UInt8) ∉ name ++ 0x3D :: value := by simp [hn, hv]
  rw [parameters, List.splitOn_eq_singleton hno, List.map_singleton, cut_append_cons hname]
  rfl

/-- The value of a parameter arrives as `w` exactly when it contains no `&` and is read so. -/
theorem parameters_pair_iff (read : Octets → Octets) {name value w : Octets} (hname : 0x3D ∉ name)
    (hn : 0x26 ∉ name) :
    parameters read (name ++ 0x3D :: value) = [(read name, w)] ↔ 0x26 ∉ value ∧ read value = w := by
  constructor
  · intro h
    have hv : 0x26 ∉ value := by
      have hlen := congrArg List.length h
      rw [length_parameters, List.length_singleton] at hlen
      have hcount : (name ++ 0x3D :: value).count 0x26 = 0 := by omega
      exact fun hmem => List.count_eq_zero.mp hcount
        (List.mem_append_right _ (List.mem_cons_of_mem _ hmem))
    rw [parameters_pair read hname hn hv] at h
    exact ⟨hv, (Prod.mk.inj (List.cons.inj h).1).2⟩
  · rintro ⟨hv, rfl⟩
    exact parameters_pair read hname hn hv

/-! ### Triplets -/

theorem triplet_eq_some {a b c v : UInt8} (h : triplet a b c = some v) :
    a = 0x25 ∧ hexVal b ≠ none ∧ hexVal c ≠ none := by
  unfold triplet at h
  split at h
  · obtain ⟨x, hx, h⟩ := Option.bind_eq_some_iff.mp h
    obtain ⟨y, hy, -⟩ := Option.map_eq_some_iff.mp h
    exact ⟨‹_›, by simp [hx], by simp [hy]⟩
  · cases h

theorem triplet_eq_none {a b c : UInt8} (h : a ≠ 0x25 ∨ hexVal b = none ∨ hexVal c = none) :
    triplet a b c = none := by
  cases ht : triplet a b c with
  | none => rfl
  | some v =>
    obtain ⟨ha, hb, hc⟩ := triplet_eq_some ht
    simp [ha, hb, hc] at h

theorem forall_octet {P : UInt8 → Prop} (h : ∀ n : Fin 256, P (UInt8.ofNat n)) (b : UInt8) : P b := by
  have hb : P (UInt8.ofNat b.toNat) := h ⟨b.toNat, b.toNat_lt⟩
  rw [UInt8.ofNat_toNat] at hb
  exact hb

theorem triplet_hexDigit (b : UInt8) : triplet 0x25 (hexDigit (b / 16)) (hexDigit (b % 16)) = some b := by
  revert b
  exact forall_octet (by decide +kernel)

theorem decode_of_some {a b c v : UInt8} (h : triplet a b c = some v) (rest : Octets) :
    decode (a :: b :: c :: rest) = v :: decode rest := by
  rw [decode, h]

/-- An octet that starts no triplet stays. -/
theorem decode_cons {a : UInt8} {rest : Octets}
    (h : ∀ b c rest', rest = b :: c :: rest' → triplet a b c = none) :
    decode (a :: rest) = a :: decode rest := by
  match rest, h with
  | [], _ => rfl
  | [b], _ => rfl
  | b :: c :: rest, h => rw [decode, h b c rest rfl]

theorem decode_cons_of_ne {a : UInt8} (h : a ≠ 0x25) (rest : Octets) :
    decode (a :: rest) = a :: decode rest :=
  decode_cons fun _ _ _ _ => triplet_eq_none (.inl h)

theorem wellFormed_of_some {ok : UInt8 → Bool} {a b c v : UInt8} (h : triplet a b c = some v)
    (rest : Octets) : WellFormed ok (a :: b :: c :: rest) = WellFormed ok rest := by
  rw [WellFormed, h]

theorem wellFormed_cons {ok : UInt8 → Bool} {a : UInt8} {rest : Octets}
    (h : ∀ b c rest', rest = b :: c :: rest' → triplet a b c = none) :
    WellFormed ok (a :: rest) = (ok a && WellFormed ok rest) := by
  match rest, h with
  | [], _ => simp [WellFormed]
  | [b], _ => rfl
  | b :: c :: rest, h => rw [WellFormed, h b c rest rfl]

/-- Induction on a text by what it starts with: a triplet or an octet that starts none. -/
theorem octets_induction {P : Octets → Prop} (nil : P [])
    (octet : ∀ a rest, (∀ b c rest', rest = b :: c :: rest' → triplet a b c = none) → P rest →
      P (a :: rest))
    (triplet : ∀ a b c v rest, triplet a b c = some v → P rest → P (a :: b :: c :: rest)) (s : Octets) :
    P s := by
  induction s using decode.induct with
  | case1 => exact nil
  | case2 a => exact octet a [] (fun _ _ _ h => by cases h) nil
  | case3 a b =>
    exact octet a [b] (fun _ _ _ h => by cases h) (octet b [] (fun _ _ _ h => by cases h) nil)
  | case4 a b c rest v h ih => exact triplet a b c v rest h ih
  | case5 a b c rest h ih =>
    refine octet a _ (fun b' c' rest' he => ?_) ih
    cases he
    exact h

/-! ### Decoding -/

/-- `s` contains a triplet. -/
def HasTriplet (s : Octets) : Prop :=
  ∃ before a b c after, s = before ++ a :: b :: c :: after ∧ triplet a b c ≠ none

theorem hasTriplet_cons {a : UInt8} {rest : Octets}
    (h : ∀ b c rest', rest = b :: c :: rest' → triplet a b c = none) :
    HasTriplet (a :: rest) ↔ HasTriplet rest := by
  constructor
  · rintro ⟨before, x, y, z, after, he, ht⟩
    cases before with
    | nil =>
      obtain ⟨rfl, rfl⟩ := List.cons.inj he
      exact absurd (h y z after rfl) ht
    | cons b before => exact ⟨before, x, y, z, after, (List.cons.inj he).2, ht⟩
  · rintro ⟨before, x, y, z, after, rfl, ht⟩
    exact ⟨a :: before, x, y, z, after, rfl, ht⟩

theorem length_decode_le (s : Octets) : (decode s).length ≤ s.length := by
  induction s using octets_induction with
  | nil => exact Nat.le_refl _
  | octet a rest h ih =>
    rw [decode_cons h, List.length_cons, List.length_cons]
    omega
  | triplet a b c v rest h ih =>
    rw [decode_of_some h]
    simp only [List.length_cons]
    omega

theorem decode_eq_self {s : Octets} (hs : ¬ HasTriplet s) : decode s = s := by
  induction s using octets_induction with
  | nil => rfl
  | octet a rest h ih => rw [decode_cons h, ih (mt (hasTriplet_cons h).mpr hs)]
  | triplet a b c v rest h ih => exact absurd ⟨[], a, b, c, rest, rfl, by simp [h]⟩ hs

theorem length_decode_lt {s : Octets} (hs : HasTriplet s) : (decode s).length < s.length := by
  induction s using octets_induction with
  | nil =>
    obtain ⟨before, a, b, c, after, he, -⟩ := hs
    simp at he
  | octet a rest h ih =>
    rw [decode_cons h, List.length_cons, List.length_cons]
    exact Nat.succ_lt_succ (ih ((hasTriplet_cons h).mp hs))
  | triplet a b c v rest h ih =>
    have hle := length_decode_le rest
    rw [decode_of_some h]
    simp only [List.length_cons]
    omega

/-! ### Encoding -/

section Encode

variable {keep : UInt8 → Bool}

theorem encode_cons_of_keep {b : UInt8} (hk : keep b = true) (s : Octets) :
    encode keep (b :: s) = b :: encode keep s := by
  simp [encode, hk]

theorem encode_cons_of_not_keep {b : UInt8} (hk : ¬ keep b = true) (s : Octets) :
    encode keep (b :: s) = 0x25 :: hexDigit (b / 16) :: hexDigit (b % 16) :: encode keep s := by
  simp [encode, hk]

theorem encode_eq_self {s : Octets} (hs : ∀ b ∈ s, keep b = true) : encode keep s = s := by
  induction s with
  | nil => rfl
  | cons b s ih =>
    obtain ⟨hb, hs⟩ := List.forall_mem_cons.mp hs
    rw [encode_cons_of_keep hb, ih hs]

theorem hexVal_hexDigit (b : UInt8) : hexVal (hexDigit (b / 16)) ≠ none ∧ hexVal (hexDigit (b % 16)) ≠ none :=
  (triplet_eq_some (triplet_hexDigit b)).2

/-- Encoding brings in nothing but `%` and digits. -/
theorem mem_encode_iff {x : UInt8} (hx : x ≠ 0x25) (hhex : hexVal x = none) {s : Octets} :
    x ∈ encode keep s ↔ x ∈ s ∧ keep x = true := by
  induction s with
  | nil => simp [encode]
  | cons b s ih =>
    by_cases hk : keep b = true
    · rw [encode_cons_of_keep hk, List.mem_cons, List.mem_cons, ih]
      constructor
      · rintro (rfl | ⟨h, hkx⟩)
        · exact ⟨.inl rfl, hk⟩
        · exact ⟨.inr h, hkx⟩
      · rintro ⟨rfl | h, hkx⟩
        · exact .inl rfl
        · exact .inr ⟨h, hkx⟩
    · rw [encode_cons_of_not_keep hk]
      obtain ⟨h1, h2⟩ := hexVal_hexDigit b
      have hx1 : x ≠ hexDigit (b / 16) := fun h => h1 (h ▸ hhex)
      have hx2 : x ≠ hexDigit (b % 16) := fun h => h2 (h ▸ hhex)
      simp only [List.mem_cons, hx, hx1, hx2, false_or, ih]
      refine ⟨fun h => ⟨.inr h.1, h.2⟩, ?_⟩
      rintro ⟨rfl | h, hkx⟩
      · exact absurd hkx hk
      · exact ⟨h, hkx⟩

theorem mem_encode_of_keep {x : UInt8} {s : Octets} (hx : x ∈ s) (hk : keep x = true) :
    x ∈ encode keep s :=
  List.mem_flatMap.mpr ⟨x, hx, by simp [hk]⟩

/-- Each octet encoded, and each `%` kept, is a `%` more. -/
theorem length_encode (s : Octets) :
    (encode keep s).length + 2 * s.countP (fun b => keep b && b == 0x25) =
      s.length + 2 * (encode keep s).count 0x25 := by
  induction s with
  | nil => rfl
  | cons b s ih =>
    by_cases hk : keep b = true
    · rw [encode_cons_of_keep hk, List.length_cons, List.length_cons, List.countP_cons, List.count_cons]
      simp only [hk, Bool.true_and]
      omega
    · obtain ⟨h1, h2⟩ := hexVal_hexDigit b
      have hx1 : hexDigit (b / 16) ≠ 0x25 := fun h => h1 (by rw [h]; rfl)
      have hx2 : hexDigit (b % 16) ≠ 0x25 := fun h => h2 (by rw [h]; rfl)
      rw [encode_cons_of_not_keep hk, List.count_cons_self, List.count_cons_of_ne hx1,
        List.count_cons_of_ne hx2, List.countP_cons]
      simp only [List.length_cons, hk, Bool.false_and]
      simp only [Bool.false_eq_true, if_false]
      omega

/-- What was encoded is decoded again, whatever follows. -/
theorem decode_encode_append {s : Octets} (hs : ∀ b ∈ s, keep b = true → b ≠ 0x25) (rest : Octets) :
    decode (encode keep s ++ rest) = s ++ decode rest := by
  induction s with
  | nil => rfl
  | cons b s ih =>
    obtain ⟨hb, hs⟩ := List.forall_mem_cons.mp hs
    by_cases hk : keep b = true
    · rw [encode_cons_of_keep hk, List.cons_append, decode_cons_of_ne (hb hk), ih hs, List.cons_append]
    · rw [encode_cons_of_not_keep hk, List.cons_append, List.cons_append, List.cons_append,
        decode_of_some (triplet_hexDigit b), ih hs, List.cons_append]

theorem decode_encode {s : Octets} (hs : ∀ b ∈ s, keep b = true → b ≠ 0x25) :
    decode (encode keep s) = s := by
  have h := decode_encode_append hs []
  rwa [List.append_nil, decode, List.append_nil] at h

end Encode

/-! ### Well-formed texts -/

section WellFormed

variable {ok : UInt8 → Bool}

/-- Each triplet makes a well-formed text two octets longer than what it decodes to. -/
theorem length_eq_of_wellFormed (hok : ok 0x25 = false) {s : Octets} (hs : WellFormed ok s = true) :
    s.length = (decode s).length + 2 * s.count 0x25 := by
  induction s using octets_induction with
  | nil => rfl
  | octet a rest h ih =>
    rw [wellFormed_cons h, Bool.and_eq_true] at hs
    have ha : a ≠ 0x25 := by
      rintro rfl
      rw [hok] at hs
      cases hs.1
    rw [decode_cons h, List.count_cons_of_ne ha]
    have := ih hs.2
    simp only [List.length_cons]
    omega
  | triplet a b c v rest h ih =>
    rw [wellFormed_of_some h] at hs
    obtain ⟨rfl, hb, hc⟩ := triplet_eq_some h
    have hb' : b ≠ 0x25 := by rintro rfl; exact hb rfl
    have hc' : c ≠ 0x25 := by rintro rfl; exact hc rfl
    rw [decode_of_some h, List.count_cons_self, List.count_cons_of_ne hb', List.count_cons_of_ne hc']
    have := ih hs
    simp only [List.length_cons]
    omega

theorem mem_of_wellFormed {s : Octets} (hs : WellFormed ok s = true) {x : UInt8} (hx : x ∈ s) :
    x = 0x25 ∨ hexVal x ≠ none ∨ ok x = true := by
  induction s using octets_induction with
  | nil => cases hx
  | octet a rest h ih =>
    rw [wellFormed_cons h, Bool.and_eq_true] at hs
    rcases List.mem_cons.mp hx with rfl | hx
    · exact .inr (.inr hs.1)
    · exact ih hs.2 hx
  | triplet a b c v rest h ih =>
    rw [wellFormed_of_some h] at hs
    obtain ⟨rfl, hb, hc⟩ := triplet_eq_some h
    simp only [List.mem_cons] at hx
    rcases hx with rfl | rfl | rfl | hx
    · exact .inl rfl
    · exact .inr (.inl hb)
    · exact .inr (.inl hc)
    · exact ih hs hx

/-- No triplet reaches over an octet that is neither `%` nor a digit. -/
theorem wellFormed_append_cons {x : UInt8} (hx : x ≠ 0x25) (hhex : hexVal x = none) (s t : Octets) :
    WellFormed ok (s ++ x :: t) = (WellFormed ok s && (ok x && WellFormed ok t)) := by
  induction s using octets_induction with
  | nil =>
    rw [List.nil_append, wellFormed_cons fun _ _ _ _ => triplet_eq_none (.inl hx)]
    rfl
  | octet a rest h ih =>
    have hacross : ∀ b c rest', rest ++ x :: t = b :: c :: rest' → triplet a b c = none := by
      intro b c rest' he
      match rest, h, he with
      | [], _, he =>
        obtain ⟨rfl, -⟩ := List.cons.inj he
        exact triplet_eq_none (.inr (.inl hhex))
      | [b'], _, he =>
        obtain ⟨-, he⟩ := List.cons.inj he
        obtain ⟨rfl, -⟩ := List.cons.inj he
        exact triplet_eq_none (.inr (.inr hhex))
      | b' :: c' :: rest, h, he =>
        obtain ⟨hb, he⟩ := List.cons.inj he
        obtain ⟨hc, -⟩ := List.cons.inj he
        exact hb ▸ hc ▸ h b' c' rest rfl
    rw [List.cons_append, wellFormed_cons hacross, wellFormed_cons h, ih, Bool.and_assoc]
  | triplet a b c v rest h ih =>
    rw [List.cons_append, List.cons_append, List.cons_append, wellFormed_of_some h,
      wellFormed_of_some h, ih]

theorem wellFormed_encode {keep : UInt8 → Bool} {s : Octets}
    (hs : ∀ b ∈ s, keep b = true → b ≠ 0x25 ∧ ok b = true) : WellFormed ok (encode keep s) = true := by
  induction s with
  | nil => rfl
  | cons b s ih =>
    obtain ⟨hb, hs⟩ := List.forall_mem_cons.mp hs
    by_cases hk : keep b = true
    · rw [encode_cons_of_keep hk, wellFormed_cons fun _ _ _ _ => triplet_eq_none (.inl (hb hk).1),
        (hb hk).2, ih hs, Bool.true_and]
    · rw [encode_cons_of_not_keep hk, wellFormed_of_some (triplet_hexDigit b), ih hs]

/-- A well-formed encoding that is decoded to the text itself kept no `%`. -/
theorem ne_of_decode_encode (hok : ok 0x25 = false) {keep : UInt8 → Bool} {s : Octets}
    (hw : WellFormed ok (encode keep s) = true) (h : decode (encode keep s) = s) :
    ∀ b ∈ s, keep b = true → b ≠ 0x25 := by
  have hlen := length_eq_of_wellFormed hok hw
  have hcount : (encode keep s).length + 2 * s.countP (fun b => keep b && b == 0x25) =
      s.length + 2 * (encode keep s).count 0x25 := length_encode s
  rw [h] at hlen
  have hzero : s.countP (fun b => keep b && b == 0x25) = 0 := by omega
  rintro b hb hk rfl
  exact List.countP_eq_zero.mp hzero _ hb (by simp [hk])

end WellFormed

/-! ### UTF-8 -/

theorem utf8_append (s t : String) : utf8 (s ++ t) = utf8 s ++ utf8 t := by
  simp only [utf8, String.toList_append, List.flatMap_append]

/-- An octet below 0x80 is that of a character of its own. -/
theorem toNat_eq_of_mem_utf8EncodeChar {c : Char} {b : UInt8} (h : b ∈ String.utf8EncodeChar c)
    (hb : b < 0x80) : c.toNat = b.toNat := by
  have hlow : b.toNat < 0x80 := hb
  have hno : ∀ n k lead, 0 < k → 0x80 ≤ lead → k + lead ≤ 0x100 → b ≠ UInt8.ofNat (n % k + lead) := by
    rintro n k lead hpos hlead hsum rfl
    have := Nat.mod_lt n hpos
    rw [UInt8.toNat_ofNat', Nat.mod_eq_of_lt (by omega)] at hlow
    omega
  unfold String.utf8EncodeChar at h
  simp only at h
  split at h
  · rename_i hle
    obtain rfl := List.mem_singleton.mp h
    rw [UInt8.toNat_ofNat', Nat.mod_eq_of_lt (by omega)]
    rfl
  · -- the octets of a longer sequence all have their first bit set
    split at h
    · rcases List.mem_cons.mp h with h | h
      · exact absurd h (hno _ _ _ (by omega) (by omega) (by omega))
      · exact absurd (List.mem_singleton.mp h) (hno _ _ _ (by omega) (by omega) (by omega))
    · split at h
      · simp only [List.mem_cons, List.not_mem_nil, or_false] at h
        rcases h with h | h | h
        all_goals exact absurd h (hno _ _ _ (by omega) (by omega) (by omega))
      · simp only [List.mem_cons, List.not_mem_nil, or_false] at h
        rcases h with h | h | h | h
        all_goals exact absurd h (hno _ _ _ (by omega) (by omega) (by omega))

theorem utf8_intercalate (l : List String) :
    utf8 ("&".intercalate l) = [0x26].intercalate (l.map utf8) := by
  induction l with
  | nil => rfl
  | cons s l ih =>
    cases l with
    | nil => rw [String.intercalate_singleton, List.map_singleton, List.intercalate_singleton]
    | cons t l =>
      rw [String.intercalate_cons_cons, utf8_append, utf8_append, ih]
      simp only [List.map_cons, List.intercalate_cons_cons]
      rfl

/-! ### Form content -/

/-- Form content is read as it is exactly when it contains neither `+` nor a triplet. -/
theorem formRead_eq_self_iff {s : Octets} : formRead s = s ↔ 0x2B ∉ s ∧ ¬ HasTriplet s := by
  unfold formRead
  constructor
  · intro h
    have hno : ¬ HasTriplet (s.map fun b => if b = 0x2B then 0x20 else b) := fun hs => by
      have hlt := length_decode_lt hs
      rw [h, List.length_map] at hlt
      exact Nat.lt_irrefl _ hlt
    rw [decode_eq_self hno] at h
    refine ⟨fun hmem => ?_, h ▸ hno⟩
    rw [← h] at hmem
    obtain ⟨b, -, hb⟩ := List.mem_map.mp hmem
    split at hb
    · exact absurd hb (by decide)
    · contradiction
  · rintro ⟨hplus, hs⟩
    have hmap : (s.map fun b => if b = 0x2B then 0x20 else b) = s := by
      refine (List.map_congr_left fun b hb => ?_).trans (List.map_id s)
      refine if_neg ?_
      rintro rfl
      exact hplus hb
    rw [hmap, decode_eq_self hs]

/-! ### Texts without triplets -/

theorem not_mem_of_decode_eq_self {ok : UInt8 → Bool} (hok : ok 0x25 = false) {s : Octets}
    (hw : WellFormed ok s = true) (h : decode s = s) : 0x25 ∉ s := by
  have hlen := length_eq_of_wellFormed hok hw
  rw [h] at hlen
  have hzero : s.count 0x25 = 0 := by omega
  exact List.count_eq_zero.mp hzero

theorem decode_of_not_mem {s : Octets} (h : 0x25 ∉ s) : decode s = s := by
  apply decode_eq_self
  rintro ⟨before, a, b, c, after, rfl, ht⟩
  obtain ⟨v, hv⟩ := Option.ne_none_iff_exists'.mp ht
  obtain ⟨rfl, -, -⟩ := triplet_eq_some hv
  exact h (List.mem_append_right _ List.mem_cons_self)

theorem wellFormed_of_not_mem {ok : UInt8 → Bool} {s : Octets} (h : 0x25 ∉ s) (hs : ∀ b ∈ s, ok b = true) :
    WellFormed ok s = true := by
  have hall : encode (fun _ => true) s = s := encode_eq_self fun _ _ => rfl
  rw [← hall]
  apply wellFormed_encode
  intro b hb _
  refine ⟨?_, hs b hb⟩
  rintro rfl
  exact h hb

/-! ### Paths -/

/-- `pchar` and `/` of RFC 3986, without the percent-encoded ones. -/
def isPathOctet (b : UInt8) : Bool := isQueryOctet b && b != 0x3F

/-- What the slashes of a path separate, decoded. -/
def segments (s : Octets) : List Octets := (s.splitOn 0x2F).map decode

/-- One segment more: `.` goes, and `..` goes with the one before it. -/
def addSegment (path : List Octets) (segment : Octets) : List Octets :=
  if segment = utf8 "." then path else if segment = utf8 ".." then path.dropLast else path ++ [segment]

def removeDotSegments (path : List Octets) : List Octets := path.foldl addSegment []

theorem segments_append (s t : Octets) : segments (s ++ 0x2F :: t) = segments s ++ segments t := by
  rw [segments, List.splitOn_append_cons_self, List.map_append]
  rfl

theorem segments_of_not_mem {s : Octets} (h : 0x2F ∉ s) : segments s = [decode s] := by
  rw [segments, List.splitOn_eq_singleton h, List.map_singleton]

theorem length_add_count_of_mem_splitOn {x : UInt8} {s p : Octets} (h : p ∈ s.splitOn x) :
    p.length + s.count x ≤ s.length := by
  induction s generalizing p with
  | nil =>
    have hp : p = [] := List.mem_singleton.mp h
    simp [hp]
  | cons a s ih =>
    have hpos : 0 < (s.splitOn x).length := by
      rw [length_splitOn]
      omega
    obtain ⟨q, qs, hqs⟩ := List.exists_cons_of_length_pos hpos
    have hq : q.length + s.count x ≤ s.length := ih (by rw [hqs]; exact List.mem_cons_self)
    rw [List.splitOn_cons_eq_if_modifyHead, hqs] at h
    by_cases ha : a = x
    · subst ha
      rw [if_pos (by simp)] at h
      rw [List.count_cons_self, List.length_cons]
      rcases List.mem_cons.mp h with rfl | hp
      · have hcount := List.count_le_length (a := a) (l := s)
        simp only [List.length_nil]
        omega
      · have := ih (by rw [hqs]; exact hp)
        omega
    · rw [if_neg (by simp [ha]), List.modifyHead_cons] at h
      rw [List.count_cons_of_ne ha, List.length_cons]
      rcases List.mem_cons.mp h with rfl | hp
      · simp only [List.length_cons]
        omega
      · have := ih (by rw [hqs]; exact List.mem_cons_of_mem q hp)
        omega

/-- A text with a slash is none of its segments. -/
theorem not_mem_segments {s : Octets} (h : 0x2F ∈ s) : s ∉ segments s := by
  intro hmem
  obtain ⟨p, hp, hdecode⟩ := List.mem_map.mp hmem
  have hpos : 0 < s.count 0x2F := List.count_pos_iff.mpr h
  have hlen := length_add_count_of_mem_splitOn hp
  have hle := length_decode_le p
  rw [hdecode] at hle
  omega

theorem removeDotSegments_append (path more : List Octets) :
    removeDotSegments (path ++ more) = more.foldl addSegment (removeDotSegments path) := List.foldl_append

/-- Removing dot segments brings in nothing. -/
theorem mem_of_mem_removeDotSegments {path : List Octets} {segment : Octets}
    (h : segment ∈ removeDotSegments path) : segment ∈ path := by
  suffices hfold : ∀ (more before : List Octets), segment ∈ more.foldl addSegment before →
      segment ∈ before ∨ segment ∈ more from
    (hfold path [] h).resolve_left List.not_mem_nil
  intro more
  induction more with
  | nil => exact fun before h => .inl h
  | cons next more ih =>
    intro before h
    rcases ih (addSegment before next) h with hadd | hmore
    · unfold addSegment at hadd
      split_ifs at hadd
      · exact .inl hadd
      · exact .inl (List.dropLast_subset before hadd)
      · rcases List.mem_append.mp hadd with hold | hnew
        · exact .inl hold
        · exact .inr (by rw [List.mem_singleton.mp hnew]; exact List.mem_cons_self)
    · exact .inr (List.mem_cons_of_mem next hmore)

end PercentEncoding
