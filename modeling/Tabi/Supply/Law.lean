import Tabi.Supply.Check

/-!
# Supply — what the check is for

A bank store is worth the base denom balances and the wei balances in it; the supply of the base
denom says what they should be worth.
-/

namespace Tabi.Supply

open Support SortedStore

variable (bt : BankTypes)

def BalanceKey (denom key : Bytes) : Prop :=
  ∃ addr : AccAddress, addr ≠ [] ∧ addr.length < 256 ∧
    key = createAccountBalancesPrefix bt addr ++ denom

variable {bt} in
theorem splitBalanceKey_eq {addr : AccAddress} (hne : addr ≠ []) (hlen : addr.length < 256)
    (denom : Bytes) :
    splitBalanceKey (createAccountBalancesPrefix bt addr ++ denom) = some (addr, denom) := by
  have hbyte : (UInt8.ofNat addr.length).toNat = addr.length := by
    rw [UInt8.toNat_ofNat', Nat.mod_eq_of_lt hlen]
  rw [createAccountBalancesPrefix, mustLengthPrefix, if_neg hne, List.cons_append, List.cons_append,
    splitBalanceKey, hbyte, if_neg (by simp), List.take_left, List.drop_left]

def BaseBalanceKey (key : Bytes) : Prop := BalanceKey bt bt.baseDenom key

theorem baseBalanceKey_iff (key : Bytes) :
    ((splitBalanceKey key).any fun (addr, _) => addr ≠ [] ∧ addr.length < 256 ∧
      key = createAccountBalancesPrefix bt addr ++ bt.baseDenom) = true ↔
      BaseBalanceKey bt key := by
  simp only [Option.any_eq_true, decide_eq_true_eq]
  constructor
  · rintro ⟨⟨addr, _⟩, -, h⟩
    exact ⟨addr, h⟩
  · rintro ⟨addr, hne, hlen, rfl⟩
    exact ⟨_, splitBalanceKey_eq hne hlen _, hne, hlen, rfl⟩

variable {bt} in
theorem baseBalanceKey_iff_denom {addr : AccAddress} {denom key : Bytes} (hne : addr ≠ [])
    (hlen : addr.length < 256) (hkey : key = createAccountBalancesPrefix bt addr ++ denom) :
    BaseBalanceKey bt key ↔ denom = bt.baseDenom := by
  constructor
  · rintro ⟨addr', hne', hlen', e⟩
    have hsplit : splitBalanceKey key = some (addr, denom) := hkey ▸ splitBalanceKey_eq hne hlen _
    rw [e, splitBalanceKey_eq hne' hlen'] at hsplit
    cases hsplit
    rfl
  · rintro rfl
    exact ⟨addr, hne, hlen, hkey⟩

instance : DecidablePred (BaseBalanceKey bt) := fun key =>
  decidable_of_iff _ (baseBalanceKey_iff bt key)

def WeiKey (key : Bytes) : Prop := key.head? = some bt.weiBalancesPrefix

instance : DecidablePred (WeiKey bt) := fun _ => inferInstanceAs (Decidable (_ = _))

def coinAmount (value : Bytes) : ℤ := (unmarshalBalance bt value).join.getD 0

def intAmount (value : Bytes) : ℤ := (bt.unmarshalInt value).join.getD 0

def amountAt (amount : Bytes → ℤ) (s : SortedStore Bytes Bytes) (key : Bytes) : ℤ :=
  weigh (fun _ => amount) key (s.get key)

def atabiTotal (s : SortedStore Bytes Bytes) : ℤ := totalWhere (BaseBalanceKey bt) (coinAmount bt) s

def weiTotal (s : SortedStore Bytes Bytes) : ℤ := totalWhere (WeiKey bt) (intAmount bt) s

def supply (s : SortedStore Bytes Bytes) : ℤ :=
  amountAt (intAmount bt) s (bt.supplyKey :: bt.baseDenom)

def excess (s : SortedStore Bytes Bytes) : ℤ :=
  atabiTotal bt s * atabiToWeiMultiplier + weiTotal bt s - supply bt s * atabiToWeiMultiplier

structure Written (key value : Bytes) : Prop where
  balance : BaseBalanceKey bt key → ∃ amt, unmarshalBalance bt value = some (some amt)
  wei : WeiKey bt key → ∃ amt, bt.unmarshalInt value = some (some amt)
  supply : key = bt.supplyKey :: bt.baseDenom → ∃ amt, bt.unmarshalInt value = some (some amt)

def KVPair.change (p : KVPair) : Option Bytes := if p.delete then none else some p.value

structure Block where
  pre : SortedStore Bytes Bytes
  changeSet : List KVPair
  pre_written : ∀ {key value}, pre.get key = some value → Written bt key value
  keys : ∀ p ∈ changeSet, p.key.head? = some bt.balancesPrefix →
    ∃ denom, BalanceKey bt denom p.key
  written : ∀ p ∈ changeSet, ∀ {value}, p.change = some value → Written bt p.key value
  unique : (changeSet.map KVPair.key).Nodup

namespace Block

variable {bt} (b : Block bt)

def store : CommitmentStore := ⟨b.pre, b.changeSet⟩

def post : SortedStore Bytes Bytes := b.pre.applyAll (b.changeSet.map fun p => (p.key, p.change))

theorem unique_changes : ((b.changeSet.map fun p => (p.key, p.change)).map Prod.fst).Nodup := by
  rw [List.map_map]
  exact b.unique

theorem post_get {p : KVPair} (hp : p ∈ b.changeSet) : b.post.get p.key = p.change :=
  get_applyAll b.unique_changes (List.mem_map_of_mem hp) b.pre

theorem post_get_of_not_mem {key : Bytes} (h : ∀ p ∈ b.changeSet, p.key ≠ key) :
    b.post.get key = b.pre.get key := by
  refine get_applyAll_of_not_mem ?_ b.pre
  rw [List.map_map, List.mem_map]
  rintro ⟨p, hp, rfl⟩
  exact h p hp rfl

def changed (kind : Bytes → Prop) [DecidablePred kind] : List KVPair :=
  b.changeSet.filter fun p => kind p.key

def amounts (kind : Bytes → Prop) [DecidablePred kind] (amount : Bytes → ℤ)
    (s : SortedStore Bytes Bytes) : List ℤ :=
  (b.changed kind).map fun p => amountAt amount s p.key

theorem mem_changed {kind : Bytes → Prop} [DecidablePred kind] {p : KVPair} :
    p ∈ b.changed kind ↔ p ∈ b.changeSet ∧ kind p.key := by
  rw [changed, List.mem_filter, decide_eq_true_eq]

theorem totalWhere_post (kind : Bytes → Prop) [DecidablePred kind] (amount : Bytes → ℤ) :
    totalWhere kind amount b.post = totalWhere kind amount b.pre +
      ((b.amounts kind amount b.post).sum - (b.amounts kind amount b.pre).sum) := by
  have hchanged : ∀ p ∈ b.changed kind,
      amountAt amount b.post p.key = weigh (fun _ => amount) p.key p.change := by
    intro p hp
    rw [amountAt, b.post_get (b.mem_changed.mp hp).1]
  rw [amounts, List.map_congr_left hchanged, post,
    totalWhere_applyAll kind amount b.unique_changes, List.filter_map, List.map_map, List.map_map]
  rfl

end Block

end Tabi.Supply
