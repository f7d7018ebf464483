import Tabi.Support.ByteUnion

/-!
# Support — BitSet

Byte strings of one length as sets of bits.
-/

namespace Support

namespace FixedBytes

variable {n : Nat}

def get (b : FixedBytes n) (i : Fin n) : UInt8 := b.bytes.get (i.cast b.length_eq.symm)

theorem byteOf_lt (i : Fin (8 * n)) : n - 1 - i.val / 8 < n := by
  have hi := i.isLt
  omega

def byteOf (i : Fin (8 * n)) : Fin n := ⟨n - 1 - i.val / 8, byteOf_lt i⟩

def maskOf (i : Fin (8 * n)) : UInt8 := 1 <<< UInt8.ofNat (i.val % 8)

def testBit (b : FixedBytes n) (i : Fin (8 * n)) : Bool := b.get (byteOf i) &&& maskOf i != 0

theorem length_setBit (b : FixedBytes n) (i : Fin n) (x : UInt8) :
    (b.bytes.set i x).length = n := List.length_set.trans b.length_eq

def setBit (b : FixedBytes n) (i : Fin (8 * n)) : FixedBytes n :=
  ⟨b.bytes.set (byteOf i) (b.get (byteOf i) ||| maskOf i), b.length_setBit _ _⟩

theorem maskOf_ne_zero (i : Fin (8 * n)) : maskOf i ≠ 0 := by
  have h : ∀ j : Fin 8, (1 : UInt8) <<< UInt8.ofNat j.val ≠ 0 := by decide
  exact h ⟨i.val % 8, Nat.mod_lt _ (by decide)⟩

theorem or_and_eq_zero_iff {x y m : UInt8} : (x ||| y) &&& m = 0 ↔ x &&& m = 0 ∧ y &&& m = 0 := by
  have h : (x ||| y) &&& m = x &&& m ||| y &&& m := by
    refine UInt8.toBitVec_inj.mp ?_
    simp only [UInt8.toBitVec_and, UInt8.toBitVec_or]
    exact BitVec.and_or_distrib_right
  rw [h, UInt8.or_eq_zero_iff]

theorem testBit_iff {b : FixedBytes n} {i : Fin (8 * n)} :
    b.testBit i = true ↔ b.get (byteOf i) &&& maskOf i ≠ 0 := bne_iff_ne

theorem testBit_setBit (b : FixedBytes n) (i : Fin (8 * n)) : (b.setBit i).testBit i = true := by
  have hget : (b.setBit i).get (byteOf i) = b.get (byteOf i) ||| maskOf i :=
    List.getElem_set_self _
  rw [testBit_iff, hget]
  intro h
  have hmask := (or_and_eq_zero_iff.mp h).2
  rw [UInt8.and_self] at hmask
  exact maskOf_ne_zero i hmask

theorem setBit_covers (b : FixedBytes n) (i : Fin (8 * n)) : Covers (b.setBit i).bytes b.bytes := by
  have hlen : (b.setBit i).bytes.length = b.bytes.length :=
    (b.setBit i).length_eq.trans b.length_eq.symm
  refine List.ext_getElem (by rw [List.length_zipWith, hlen, Nat.min_self]) fun k _ hk => ?_
  rw [List.getElem_zipWith]
  simp only [setBit, List.getElem_set]
  split
  · rename_i e
    subst e
    show b.get (byteOf i) ||| maskOf i ||| b.get (byteOf i) = b.get (byteOf i) ||| maskOf i
    rw [UInt8.or_comm, ← UInt8.or_assoc, UInt8.or_self]
  · exact UInt8.or_self

end FixedBytes

theorem Covers.refl (a : Bytes) : Covers a a := by
  induction a with
  | nil => rfl
  | cons x a ih => exact congrArg₂ List.cons UInt8.or_self ih

theorem Covers.testBit {n : Nat} {a b : FixedBytes n} (h : Covers a.bytes b.bytes) {i : Fin (8 * n)}
    (hi : b.testBit i = true) : a.testBit i = true := by
  have hbyte : a.get (FixedBytes.byteOf i) ||| b.get (FixedBytes.byteOf i) =
      a.get (FixedBytes.byteOf i) := by
    have hlt : (FixedBytes.byteOf i).val < (List.zipWith (· ||| ·) a.bytes b.bytes).length := by
      rw [h, a.length_eq]
      exact (FixedBytes.byteOf i).isLt
    have hor := List.getElem_zipWith (h := hlt)
    have hget : (List.zipWith (· ||| ·) a.bytes b.bytes)[(FixedBytes.byteOf i).val] =
        a.get (FixedBytes.byteOf i) := List.getElem_of_eq h hlt
    exact hor.symm.trans hget
  rw [FixedBytes.testBit_iff] at hi ⊢
  intro hzero
  rw [← hbyte] at hzero
  exact hi (FixedBytes.or_and_eq_zero_iff.mp hzero).2

theorem FixedBytes.testBit_foldl_setBit {n : Nat} (b : FixedBytes n) (is : List (Fin (8 * n)))
    {i : Fin (8 * n)} (hi : i ∈ is) : (is.foldl FixedBytes.setBit b).testBit i = true := by
  -- what is set stays set in the rest of the loop
  have hkept : ∀ (is : List (Fin (8 * n))) {b : FixedBytes n}, b.testBit i = true →
      (is.foldl FixedBytes.setBit b).testBit i = true := by
    intro is
    induction is with
    | nil => exact fun h => h
    | cons j is ih => exact fun h => ih ((FixedBytes.setBit_covers _ j).testBit h)
  induction is generalizing b with
  | nil => cases hi
  | cons j is ih =>
    rcases List.mem_cons.mp hi with rfl | hi
    · exact hkept is (FixedBytes.testBit_setBit b i)
    · exact ih (b.setBit j) hi

end Support
