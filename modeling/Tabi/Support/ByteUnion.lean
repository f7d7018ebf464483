import Tabi.Support.Bytes

/-!
# Support — ByteUnion

Byte strings as sets of bits.
-/

namespace Support

def Covers (a b : Bytes) : Prop := List.zipWith (· ||| ·) a b = a

instance (a b : Bytes) : Decidable (Covers a b) := inferInstanceAs (Decidable (_ = _))

namespace Covers

variable {a b c : Bytes}

theorem zero {n : Nat} (h : a.length = n) : Covers a (List.replicate n 0) := by
  subst h
  induction a with
  | nil => rfl
  | cons x a ih => exact congrArg₂ List.cons (UInt8.or_zero) ih

theorem ofBytes_nil {n : Nat} (h : a.length = n) : Covers a (FixedBytes.ofBytes n []).bytes := by
  have hzero : (FixedBytes.ofBytes n []).bytes = List.replicate n 0 := by simp [FixedBytes.ofBytes]
  rw [hzero]
  exact zero h

theorem or_left (h : a.length = b.length) : Covers (List.zipWith (· ||| ·) a b) a := by
  induction a generalizing b with
  | nil => rfl
  | cons x a ih =>
    cases b with
    | nil => cases h
    | cons y b =>
      refine congrArg₂ List.cons ?_ (ih (Nat.succ.inj h))
      show x ||| y ||| x = x ||| y
      rw [UInt8.or_comm, ← UInt8.or_assoc, UInt8.or_self]

theorem or_right (h : a.length = b.length) : Covers (List.zipWith (· ||| ·) a b) b := by
  induction a generalizing b with
  | nil => rfl
  | cons x a ih =>
    cases b with
    | nil => cases h
    | cons y b =>
      refine congrArg₂ List.cons ?_ (ih (Nat.succ.inj h))
      show x ||| y ||| y = x ||| y
      rw [UInt8.or_assoc, UInt8.or_self]

theorem trans (hlen : a.length = b.length) (h : Covers a b) (h' : Covers b c) : Covers a c := by
  induction a generalizing b c with
  | nil => rfl
  | cons x a ih =>
    cases b with
    | nil => cases hlen
    | cons y b =>
      cases c with
      | nil => cases h'
      | cons z c =>
        obtain ⟨hx, ha⟩ : x ||| y = x ∧ Covers a b := List.cons.inj h
        obtain ⟨hy, hb⟩ : y ||| z = y ∧ Covers b c := List.cons.inj h'
        refine congrArg₂ List.cons ?_ (ih (Nat.succ.inj hlen) ha hb)
        calc x ||| z = x ||| y ||| z := by rw [hx]
          _ = x := by rw [UInt8.or_assoc, hy, hx]

end Covers

theorem foldl_or_covers {n : Nat} (bs : List (FixedBytes n)) {acc : Bytes} (hacc : acc.length = n) :
    let res := bs.foldl (fun acc b => List.zipWith (· ||| ·) acc b.bytes) acc
    res.length = n ∧ Covers res acc ∧ ∀ b ∈ bs, Covers res b.bytes := by
  induction bs generalizing acc with
  | nil => exact ⟨hacc, by simp [Covers], nofun⟩
  | cons b bs ih =>
    have hlen : acc.length = b.bytes.length := hacc.trans b.length_eq.symm
    have hor : (List.zipWith (· ||| ·) acc b.bytes).length = n := by
      rw [List.length_zipWith, ← hlen, Nat.min_self, hacc]
    obtain ⟨hres, hcover, hall⟩ := ih hor
    refine ⟨hres, hcover.trans (hres.trans hor.symm) (.or_left hlen), ?_⟩
    intro b' hb'
    rcases List.mem_cons.mp hb' with rfl | hb'
    · exact hcover.trans (hres.trans hor.symm) (.or_right hlen)
    · exact hall b' hb'

end Support
