import Tabi.Support.Bytes
import Mathlib.Data.List.DropRight

/-!
# Support — JsonText

Integers in JSON texts.
-/

namespace Support.JsonText

def plus : UInt8 := 0x2b
def minus : UInt8 := 0x2d
def quote : UInt8 := 0x22
def backslash : UInt8 := 0x5c

def isDigit (b : UInt8) : Bool := 0x30 ≤ b && b ≤ 0x39

def digitsValue (ds : Bytes) : Nat := ds.foldl (fun acc d => acc * 10 + (d.toNat - 0x30)) 0

def Digits (ds : Bytes) : Prop := ds ≠ [] ∧ ∀ d ∈ ds, isDigit d

instance (ds : Bytes) : Decidable (Digits ds) :=
  @instDecidableAnd _ _ inferInstance (List.decidableBAll _ ds)

def natOfDigits (ds : Bytes) : Option Nat := if Digits ds then some (digitsValue ds) else none

def intOfDecimal : Bytes → Option ℤ
  | [] => none
  | b :: ds =>
    if b = minus then (natOfDigits ds).map fun n : Nat => -(n : ℤ)
    else if b = plus then (natOfDigits ds).map fun n : Nat => (n : ℤ)
    else (natOfDigits (b :: ds)).map fun n : Nat => (n : ℤ)

inductive Numeral : Bytes → ℤ → Prop
  | unsigned {ds : Bytes} (h : Digits ds) : Numeral ds (digitsValue ds)
  | plus {ds : Bytes} (h : Digits ds) : Numeral (plus :: ds) (digitsValue ds)
  | minus {ds : Bytes} (h : Digits ds) : Numeral (minus :: ds) (-(digitsValue ds : ℤ))

theorem natOfDigits_eq_some {ds : Bytes} {n : Nat} :
    natOfDigits ds = some n ↔ Digits ds ∧ digitsValue ds = n := by
  unfold natOfDigits
  split <;> simp [*]

theorem Digits.head {b : UInt8} {ds : Bytes} (h : Digits (b :: ds)) : b ≠ minus ∧ b ≠ plus := by
  have hb := h.2 b List.mem_cons_self
  constructor <;> rintro rfl <;> exact absurd hb (by decide)

theorem intOfDecimal_eq_some {t : Bytes} {z : ℤ} : intOfDecimal t = some z ↔ Numeral t z := by
  constructor
  · intro h
    cases t with
    | nil => cases h
    | cons b ds =>
      rw [intOfDecimal] at h
      split_ifs at h with hminus hplus
      all_goals obtain ⟨n, hn, rfl⟩ := Option.map_eq_some_iff.mp h
      all_goals obtain ⟨hds, rfl⟩ := natOfDigits_eq_some.mp hn
      · rw [hminus]
        exact .minus hds
      · rw [hplus]
        exact .plus hds
      · exact .unsigned hds
  · intro h
    cases h with
    | unsigned h =>
      cases t with
      | nil => exact absurd rfl h.1
      | cons b ds =>
        rw [intOfDecimal, if_neg h.head.1, if_neg h.head.2, natOfDigits, if_pos h]
        rfl
    | plus h =>
      rw [intOfDecimal, if_neg (by decide), if_pos rfl, natOfDigits, if_pos h]
      rfl
    | minus h =>
      rw [intOfDecimal, if_pos rfl, natOfDigits, if_pos h]
      rfl

theorem Numeral.not_mem {t : Bytes} {z : ℤ} (h : Numeral t z) : quote ∉ t ∧ backslash ∉ t := by
  have hdigits : ∀ {ds : Bytes}, Digits ds → quote ∉ ds ∧ backslash ∉ ds := fun h =>
    ⟨fun hq => absurd (h.2 _ hq) (by decide), fun hb => absurd (h.2 _ hb) (by decide)⟩
  cases h with
  | unsigned h => exact hdigits h
  | plus h | minus h =>
    obtain ⟨hq, hb⟩ := hdigits h
    constructor <;> rw [List.mem_cons, not_or]
    · exact ⟨by decide, hq⟩
    · exact ⟨by decide, hb⟩

inductive IsContent : Bytes → Prop
  | nil : IsContent []
  | plain {b : UInt8} {rest : Bytes} (hq : b ≠ quote) (hb : b ≠ backslash) (h : IsContent rest) :
      IsContent (b :: rest)
  | escape {b : UInt8} {rest : Bytes} (h : IsContent rest) : IsContent (backslash :: b :: rest)

def quoted (content : Bytes) : Bytes := quote :: (content ++ [quote])

inductive IsValue : Bytes → Prop
  | string {content : Bytes} (h : IsContent content) : IsValue (quoted content)
  | other {raw : Bytes} (hhead : raw.head? ≠ some quote) (hlast : raw.getLast? ≠ some quote) :
      IsValue raw

inductive Writes : Bytes → ℤ → Prop
  | number {raw : Bytes} {z : ℤ} (h : Numeral raw z) : Writes raw z
  | string {content : Bytes} {z : ℤ} (h : Numeral content z) : Writes (quoted content) z

theorem IsContent.quote_not_mem {c : Bytes} (h : IsContent c) (hb : backslash ∉ c) : quote ∉ c := by
  induction h with
  | nil => exact List.not_mem_nil
  | plain hq _ _ ih =>
    rw [List.mem_cons, not_or]
    exact ⟨hq.symm, ih fun h => hb (List.mem_cons_of_mem _ h)⟩
  | escape _ _ => exact absurd List.mem_cons_self hb

def trim (q : UInt8) (text : Bytes) : Bytes := (text.dropWhile (· == q)).rdropWhile (· == q)

theorem mem_trim_or (q : UInt8) {text : Bytes} {b : UInt8} (h : b ∈ text) :
    b ∈ trim q text ∨ b = q := by
  rw [← List.takeWhile_append_dropWhile (p := (· == q)) (l := text), List.mem_append] at h
  rcases h with h | h
  · exact .inr (by simpa using List.mem_takeWhile_imp h)
  · rw [← List.rdropWhile_append_rtakeWhile (p := (· == q)) (l := text.dropWhile (· == q)),
      List.mem_append] at h
    rcases h with h | h
    · exact .inl h
    · exact .inr (by simpa using List.mem_rtakeWhile_imp h)

theorem trim_of_ends {q : UInt8} {text : Bytes} (hhead : text.head? ≠ some q)
    (hlast : text.getLast? ≠ some q) : trim q text = text := by
  have hleft : text.dropWhile (· == q) = text := by
    cases text with
    | nil => rfl
    | cons b rest =>
      have hb : ¬ (b == q) = true := fun e => hhead (by simpa using e)
      exact List.dropWhile_cons_of_neg (p := (· == q)) hb
  rw [trim, hleft, List.rdropWhile_eq_self_iff]
  intro hne e
  exact hlast (by rw [List.getLast?_eq_getLast_of_ne_nil hne]; simpa using e)

theorem trim_quoted {content : Bytes} (h : quote ∉ content) :
    trim quote (quoted content) = content := by
  have hleft : (quoted content).dropWhile (· == quote) =
      (content ++ [quote]).dropWhile (· == quote) := List.dropWhile_cons_of_pos rfl
  cases content with
  | nil => rfl
  | cons b rest =>
    have hb : ¬ (b == quote) = true := fun e => h (by simp [eq_of_beq e])
    rw [trim, hleft, List.cons_append, List.dropWhile_cons_of_neg (p := (· == quote)) hb,
      ← List.cons_append,
      List.rdropWhile_concat_pos _ _ _ rfl, List.rdropWhile_eq_self_iff]
    intro hne e
    exact h (by rw [← eq_of_beq e]; exact List.getLast_mem hne)

theorem intOfDecimal_trim_iff {raw : Bytes} {z : ℤ} (h : IsValue raw) :
    intOfDecimal (trim quote raw) = some z ↔ Writes raw z := by
  rw [intOfDecimal_eq_some]
  cases h with
  | @string content hc =>
    constructor
    · intro hz
      -- what is left has no backslash, so there was none, and no mark inside
      have hb : backslash ∉ content := by
        intro hmem
        have hraw : backslash ∈ quoted content :=
          List.mem_cons_of_mem _ (List.mem_append_left _ hmem)
        rcases mem_trim_or quote hraw with h | h
        · exact hz.not_mem.2 h
        · exact absurd h (by decide)
      rw [trim_quoted (hc.quote_not_mem hb)] at hz
      exact .string hz
    · intro hw
      generalize hraw : quoted content = raw at hw
      cases hw with
      | number h =>
        have hq := h.not_mem.1
        rw [← hraw] at hq
        exact absurd List.mem_cons_self hq
      | string h =>
        rw [trim_quoted h.not_mem.1]
        exact h
  | other hhead hlast =>
    rw [trim_of_ends hhead hlast]
    refine ⟨.number, fun hw => ?_⟩
    cases hw with
    | number h => exact h
    | string _ => exact absurd rfl hhead

theorem Writes.unique {raw : Bytes} {z z' : ℤ} (hraw : IsValue raw) (h : Writes raw z)
    (h' : Writes raw z') : z = z' := by
  have hz := (intOfDecimal_trim_iff hraw).mpr h
  have hz' := (intOfDecimal_trim_iff hraw).mpr h'
  exact Option.some.inj (hz.symm.trans hz')

end Support.JsonText
