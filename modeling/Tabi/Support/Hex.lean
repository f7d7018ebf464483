import Tabi.Support.Bytes

/-!
# Support — Hex

Byte strings written as hexadecimal digits.
-/

namespace Support.Hex

def digit (n : Nat) : UInt8 := if n < 10 then UInt8.ofNat (48 + n) else UInt8.ofNat (87 + n)

def value? (c : UInt8) : Option Nat :=
  if 48 ≤ c ∧ c ≤ 57 then some (c.toNat - 48)
  else if 97 ≤ c ∧ c ≤ 102 then some (c.toNat - 87)
  else if 65 ≤ c ∧ c ≤ 70 then some (c.toNat - 55)
  else none

def nibbles (b : Bytes) : List Nat := b.flatMap fun x => [x.toNat / 16, x.toNat % 16]

def encode (b : Bytes) : Bytes := (nibbles b).map digit

def decode : Bytes → Bytes
  | c :: d :: rest =>
    match value? c, value? d with
    | some hi, some lo => UInt8.ofNat (hi * 16 + lo) :: decode rest
    | _, _ => []
  | _ => []

def isHex (s : Bytes) : Bool := s.length % 2 == 0 && s.all fun c => (value? c).isSome

theorem value_digit : ∀ n < 16, value? (digit n) = some n := by decide

theorem value_digit_upper : ∀ n < 16, 57 < digit n → value? (digit n - 32) = some n := by
  decide

theorem nibbles_cons (x : UInt8) (b : Bytes) :
    nibbles (x :: b) = x.toNat / 16 :: x.toNat % 16 :: nibbles b := rfl

theorem nibbles_lt (b : Bytes) : ∀ n ∈ nibbles b, n < 16 := by
  intro n hn
  obtain ⟨x, -, hn⟩ := List.mem_flatMap.mp hn
  have hx : x.toNat < 256 := x.toNat_lt
  simp only [List.mem_cons, List.not_mem_nil, or_false] at hn
  omega

@[simp] theorem length_nibbles (b : Bytes) : (nibbles b).length = 2 * b.length := by
  induction b with
  | nil => rfl
  | cons x b ih =>
    rw [nibbles_cons, List.length_cons, List.length_cons, List.length_cons, ih]
    omega

@[simp] theorem length_encode (b : Bytes) : (encode b).length = 2 * b.length := by
  rw [encode, List.length_map, length_nibbles]

theorem values_encode (b : Bytes) : (encode b).map value? = (nibbles b).map some := by
  rw [encode, List.map_map]
  exact List.map_congr_left fun n hn => value_digit n (nibbles_lt b n hn)

variable {s b : Bytes}

theorem decode_of_values (h : s.map value? = (nibbles b).map some) : decode s = b := by
  induction b generalizing s with
  | nil =>
    obtain rfl : s = [] := by simpa [nibbles] using h
    rfl
  | cons x b ih =>
    -- the digits of `x` come first: two characters with its halves as their values
    rw [nibbles_cons, List.map_cons, List.map_cons] at h
    obtain ⟨c, s, rfl, hc, h⟩ := List.map_eq_cons_iff.mp h
    obtain ⟨d, s, rfl, hd, h⟩ := List.map_eq_cons_iff.mp h
    have hx : x.toNat / 16 * 16 + x.toNat % 16 = x.toNat := by omega
    simp only [decode, hc, hd, hx, UInt8.ofNat_toNat, ih h]

theorem values_zipWith {ι : Type} {f : UInt8 → ι → UInt8} {is : List ι}
    (hf : ∀ c ∈ s, ∀ i, value? (f c i) = value? c) (hlen : s.length ≤ is.length) :
    (List.zipWith f s is).map value? = s.map value? := by
  induction s generalizing is with
  | nil => rfl
  | cons c s ih =>
    cases is with
    | nil => exact absurd hlen (by simp)
    | cons i is =>
      rw [List.zipWith_cons_cons, List.map_cons, List.map_cons,
        hf c List.mem_cons_self i, ih (fun d hd => hf d (List.mem_cons_of_mem c hd)) (by
          simpa using hlen)]

def has0xPrefix : Bytes → Bool
  | 48 :: c :: _ => c == 120 || c == 88
  | _ => false

def strip0x (s : Bytes) : Bytes := if has0xPrefix s then s.drop 2 else s

def ofText (s : Bytes) : Bytes :=
  let s := strip0x s
  decode (if s.length % 2 = 1 then 48 :: s else s)

@[simp] theorem strip0x_cons (s : Bytes) : strip0x (48 :: 120 :: s) = s := rfl

theorem ofText_of_values (h : s.map value? = (nibbles b).map some) :
    ofText (48 :: 120 :: s) = b := by
  have hlen : s.length = 2 * b.length := by simpa using congrArg List.length h
  have heven : ¬ s.length % 2 = 1 := by omega
  rw [ofText, strip0x_cons, if_neg heven]
  exact decode_of_values h

def digitAt (s : Bytes) (k : Nat) : Nat := (s.reverse[k]?.bind value?).getD 0

def byteAt (b : Bytes) (j : Nat) : UInt8 := b.reverse[j]?.getD 0

theorem digitAt_cons_zero (s : Bytes) (k : Nat) : digitAt (48 :: s) k = digitAt s k := by
  unfold digitAt
  rw [List.reverse_cons]
  rcases Nat.lt_trichotomy k s.length with hlt | rfl | hgt
  · rw [List.getElem?_append_left (by simpa using hlt)]
  · simp [value?]
  · rw [List.getElem?_eq_none (by simp; omega), List.getElem?_eq_none (by simp; omega)]

theorem digitAt_append {s' : Bytes} {k : Nat} (hk : k < s'.length) :
    digitAt (s ++ s') k = digitAt s' k := by
  rw [digitAt, List.reverse_append, List.getElem?_append_left (by simpa using hk), digitAt]

theorem byteAt_append {b' : Bytes} {j : Nat} (hj : j < b'.length) :
    byteAt (b ++ b') j = byteAt b' j := by
  rw [byteAt, List.reverse_append, List.getElem?_append_left (by simpa using hj), byteAt]

theorem byteAt_of_le {j : Nat} (hj : b.length ≤ j) : byteAt b j = 0 := by
  rw [byteAt, List.getElem?_eq_none (by simpa using hj), Option.getD_none]

theorem digitAt_of_le {k : Nat} (hk : s.length ≤ k) : digitAt s k = 0 := by
  rw [digitAt, List.getElem?_eq_none (by simpa using hk)]
  rfl

theorem isHex_cons_cons {c d : UInt8} (h : isHex (c :: d :: s) = true) :
    (∃ hi, value? c = some hi) ∧ (∃ lo, value? d = some lo) ∧ isHex s = true := by
  simp only [isHex, List.length_cons, List.all_cons, Bool.and_eq_true, beq_iff_eq,
    Option.isSome_iff_exists] at h ⊢
  obtain ⟨hlen, hc, hd, hs⟩ := h
  exact ⟨hc, hd, by omega, hs⟩

theorem length_decode (h : isHex s = true) : 2 * (decode s).length = s.length := by
  fun_induction decode s with
  | case1 c d s hi lo hd hc ih =>
    have := ih (isHex_cons_cons h).2.2
    simp only [List.length_cons]
    omega
  | case2 c d s hnone =>
    obtain ⟨⟨hi, hc⟩, ⟨lo, hd⟩, -⟩ := isHex_cons_cons h
    exact absurd hd (hnone hi lo hc)
  | case3 s hshort =>
    cases s with
    | nil => rfl
    | cons c s =>
      cases s with
      | nil => cases h
      | cons d s => exact absurd rfl (hshort c d s)

theorem byteAt_decode (h : isHex s = true) (j : Nat) :
    byteAt (decode s) j = UInt8.ofNat (digitAt s (2 * j + 1) * 16 + digitAt s (2 * j)) := by
  fun_induction decode s with
  | case1 c d s hi lo hd hc ih =>
    have hs := (isHex_cons_cons h).2.2
    have hlen := length_decode hs
    have ih := ih hs
    rcases Nat.lt_trichotomy j (decode s).length with hlt | rfl | hgt
    · rw [show c :: d :: s = [c, d] ++ s from rfl, digitAt_append (by omega),
        digitAt_append (by omega), ← ih, ← byteAt_append (b := [_]) hlt]
      rfl
    · -- the first byte and the first two digits
      have hbyte : byteAt (UInt8.ofNat (hi * 16 + lo) :: decode s) (decode s).length =
          UInt8.ofNat (hi * 16 + lo) := by
        simp [byteAt]
      have hhigh : digitAt (c :: d :: s) (2 * (decode s).length + 1) = hi := by
        simp [digitAt, hlen, hc]
      have hlow : digitAt (c :: d :: s) (2 * (decode s).length) = lo := by
        simp [digitAt, hlen, hd]
      rw [hbyte, hhigh, hlow]
    · rw [byteAt_of_le (by simp; omega), digitAt_of_le (by simp; omega),
        digitAt_of_le (by simp; omega)]
      rfl
  | case2 c d s hnone =>
    obtain ⟨⟨hi, hc⟩, ⟨lo, hd⟩, -⟩ := isHex_cons_cons h
    exact absurd hd (hnone hi lo hc)
  | case3 s hshort =>
    cases s with
    | nil => rfl
    | cons c s =>
      cases s with
      | nil => cases h
      | cons d s => exact absurd rfl (hshort c d s)

theorem ofBytes_eq_iff {n : Nat} {a : Bytes} :
    FixedBytes.ofBytes n a = FixedBytes.ofBytes n b ↔ ∀ j < n, byteAt a j = byteAt b j := by
  have hread : ∀ (c : Bytes), ∀ j < n, (FixedBytes.ofBytes n c).bytes.reverse[j]? =
      some (byteAt c j) := by
    intro c j hj
    simp only [FixedBytes.ofBytes, List.reverse_drop, List.reverse_append, List.reverse_replicate]
    rw [List.getElem?_take_of_lt (by simp; omega), byteAt]
    rcases Nat.lt_or_ge j c.length with hlt | hge
    · rw [List.getElem?_append_left (by simpa using hlt), List.getElem?_eq_getElem (by simpa)]
      rfl
    · rw [List.getElem?_append_right (by simpa using hge), List.getElem?_replicate_of_lt,
        List.getElem?_eq_none (by simpa using hge)]
      · rfl
      · simp
        omega
  constructor
  · intro h j hj
    exact Option.some.inj ((hread a j hj).symm.trans (h ▸ hread b j hj))
  · intro h
    apply FixedBytes.ext
    rw [← List.reverse_inj]
    refine List.ext_getElem? fun j => ?_
    rcases Nat.lt_or_ge j n with hlt | hge
    · rw [hread a j hlt, hread b j hlt, h j hlt]
    · rw [List.getElem?_eq_none, List.getElem?_eq_none]
      · simpa [(FixedBytes.ofBytes n b).length_eq] using hge
      · simpa [(FixedBytes.ofBytes n a).length_eq] using hge

end Support.Hex
