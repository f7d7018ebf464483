import Tabi.Supply.Law

/-!
# Supply — the check is the law

The check sees the pairs a block changed and adds up their amounts, after the block and before it.
-/

namespace Tabi.Supply

open Support SortedStore

variable {bt : BankTypes}

/-- What one iteration does with `p`: nothing if it does not count; else it panics if the amount
is negative, and adds it if not. -/
structure Tallies (step : Tally → KVPair → Outcome Tally) (counts : Prop) (addr : AccAddress)
    (after : ℤ) (p : KVPair) : Prop where
  skip : ¬ counts → ∀ t, step t p = .ok t
  negative : counts → after < 0 → ∀ t, ∃ e, step t p = .error e
  count : counts → 0 ≤ after → ∀ t, SdkInt.Fits (t.postTotal + after) →
    step t p = .ok ⟨t.postTotal + after, t.changedAddrs ++ [addr]⟩

section Loop

variable {step : Tally → KVPair → Outcome Tally} {counts : KVPair → Prop} [DecidablePred counts]
  {addr : KVPair → AccAddress} {after : KVPair → ℤ} {ps : List KVPair}

omit [DecidablePred counts] in
theorem tally_panics (h : ∀ p ∈ ps, Tallies step (counts p) (addr p) (after p) p)
    (hneg : ∃ p ∈ ps, counts p ∧ after p < 0) : ∀ t, ∃ e, ps.foldlM step t = .error e := by
  induction ps with
  | nil =>
    obtain ⟨p, hp, -⟩ := hneg
    cases hp
  | cons p ps ih =>
    intro t
    rw [List.foldlM_cons]
    obtain ⟨q, hq, hcounts, hlt⟩ := hneg
    cases hstep : step t p with
    | error e => exact ⟨e, rfl⟩
    | ok t' =>
      rcases List.mem_cons.mp hq with rfl | hq
      · obtain ⟨e, he⟩ := (h q List.mem_cons_self).negative hcounts hlt t
        rw [he] at hstep
        cases hstep
      · exact ih (fun p hp => h p (List.mem_cons_of_mem _ hp)) ⟨q, hq, hcounts, hlt⟩ t'

theorem tally_returns (h : ∀ p ∈ ps, Tallies step (counts p) (addr p) (after p) p)
    (hnonneg : ∀ p ∈ ps, counts p → 0 ≤ after p) :
    ∀ t : Tally, SdkInt.FitsAlong t.postTotal ((ps.filter fun p => counts p).map after) →
      ps.foldlM step t = .ok ⟨t.postTotal + ((ps.filter fun p => counts p).map after).sum,
        t.changedAddrs ++ (ps.filter fun p => counts p).map addr⟩ := by
  induction ps with
  | nil =>
    intro t _
    simp
  | cons p ps ih =>
    intro t hfits
    have hp := h p List.mem_cons_self
    have ih := ih (fun q hq => h q (List.mem_cons_of_mem _ hq))
      fun q hq => hnonneg q (List.mem_cons_of_mem _ hq)
    rw [List.foldlM_cons]
    by_cases hc : counts p
    · rw [List.filter_cons_of_pos (by simpa using hc), List.map_cons] at hfits
      obtain ⟨-, hfits⟩ := SdkInt.fitsAlong_cons.mp hfits
      have hfirst : SdkInt.Fits (t.postTotal + after p) := by simpa using hfits 0
      rw [hp.count hc (hnonneg p List.mem_cons_self hc) t hfirst, Outcome.ok_bind, ih _ hfits]
      simp [hc, add_assoc]
    · rw [List.filter_cons_of_neg (by simpa using hc)] at hfits ⊢
      rw [hp.skip hc, Outcome.ok_bind, ih _ hfits]

end Loop

theorem addPre_returns {unmarshal : Bytes → Option (Option ℤ)} {ckv : CommitmentStore}
    {keys : List Bytes}
    (hstored : ∀ key ∈ keys, ∀ {value}, ckv.tree.get key = some value →
      ∃ amt, unmarshal value = some (some amt)) :
    ∀ z, SdkInt.FitsAlong z (keys.map (amountAt (fun v => (unmarshal v).join.getD 0) ckv.tree)) →
      keys.foldlM (addPre unmarshal ckv) z =
        .ok (z + (keys.map (amountAt (fun v => (unmarshal v).join.getD 0) ckv.tree)).sum) := by
  induction keys with
  | nil =>
    intro z _
    simp
  | cons key keys ih =>
    intro z hfits
    rw [List.map_cons] at hfits
    obtain ⟨-, hfits⟩ := SdkInt.fitsAlong_cons.mp hfits
    have hfirst :
        SdkInt.Fits (z + amountAt (fun v => (unmarshal v).join.getD 0) ckv.tree key) := by
      simpa using hfits 0
    have hstep : addPre unmarshal ckv z key =
        .ok (z + amountAt (fun v => (unmarshal v).join.getD 0) ckv.tree key) := by
      unfold addPre CommitmentStore.get amountAt at *
      cases hget : ckv.tree.get key with
      | none => simp [weigh]
      | some value =>
        obtain ⟨amt, hamt⟩ := hstored key List.mem_cons_self hget
        rw [hget] at hfirst
        simp only [weigh, hamt, Option.join_some, Option.getD_some] at hfirst ⊢
        exact SdkInt.add_eq_ok.mpr ⟨hfirst, rfl⟩
    rw [List.foldlM_cons, hstep, Outcome.ok_bind,
      ih (fun k hk => hstored k (List.mem_cons_of_mem _ hk)) _ hfits, List.map_cons,
      List.sum_cons, add_assoc]

structure Totals.InRange (t : Totals) : Prop where
  weiDiff : SdkInt.Fits (t.weiPost - t.weiPre)
  atabiDiff : SdkInt.Fits (t.atabiPre - t.atabiPost)
  withWei : SdkInt.Fits
    (t.atabiPre - t.atabiPost - (t.weiPost - t.weiPre).tdiv atabiToWeiMultiplier)
  withSupply : SdkInt.Fits
    (t.atabiPre - t.atabiPost - (t.weiPost - t.weiPre).tdiv atabiToWeiMultiplier + t.supplyChanged)

theorem compareTotals_returns_iff {t : Totals} (h : t.InRange) :
    compareTotals t = .ok () ↔
      (t.atabiPost - t.atabiPre) * atabiToWeiMultiplier + (t.weiPost - t.weiPre) =
        t.supplyChanged * atabiToWeiMultiplier := by
  have hm : atabiToWeiMultiplier = 1000000000000 := rfl
  simp only [compareTotals, SdkInt.sub_eq_ok.mpr ⟨h.weiDiff, rfl⟩, Outcome.ok_bind,
    splitAtabiWeiAmount_ok h.weiDiff]
  by_cases hrem : (t.weiPost - t.weiPre) % atabiToWeiMultiplier = 0
  · have hquot := Int.tdiv_mul_cancel (Int.dvd_of_emod_eq_zero hrem)
    simp only [hrem, ne_eq, not_true_eq_false, if_false, SdkInt.sub_eq_ok.mpr ⟨h.atabiDiff, rfl⟩,
      SdkInt.sub_eq_ok.mpr ⟨h.withWei, rfl⟩, SdkInt.add_eq_ok.mpr ⟨h.withSupply, rfl⟩,
      Outcome.ok_bind, Outcome.pure_eq_ok]
    rw [hm] at hquot ⊢
    split
    · rename_i hne
      refine ⟨fun e => ?_, fun e => absurd ?_ hne⟩
      · obtain ⟨_, -, e⟩ := bind_eq_ok.mp e
        cases e
      · omega
    · rename_i heq
      refine ⟨fun _ => ?_, fun _ => rfl⟩
      omega
  · simp only [ne_eq, hrem, not_false_eq_true, if_true]
    refine ⟨nofun, fun e => absurd ?_ hrem⟩
    rw [hm] at e ⊢
    omega

theorem tallyBalance_tallies {p : KVPair} {s : SortedStore Bytes Bytes}
    (hs : s.get p.key = p.change) (hkey : ∃ denom, BalanceKey bt denom p.key)
    (hwritten : ∀ {value}, p.change = some value → Written bt p.key value) :
    Tallies (tallyBalance bt) (BaseBalanceKey bt p.key)
      (((splitBalanceKey p.key).map Prod.fst).getD []) (amountAt (coinAmount bt) s p.key) p := by
  obtain ⟨denom, addr, hne, hlen, hkey⟩ := hkey
  have hsplit : splitBalanceKey p.key = some (addr, denom) := hkey ▸ splitBalanceKey_eq hne hlen _
  have hbase := baseBalanceKey_iff_denom hne hlen hkey
  have hstep : ∀ t, tallyBalance bt t p =
      if denom ≠ bt.baseDenom then .ok t else tallyBaseBalance bt t addr p := fun t => by
    simp only [tallyBalance, hsplit, Outcome.pure_eq_ok]
  have hskip : ¬ BaseBalanceKey bt p.key → ∀ t, tallyBalance bt t p = .ok t := fun hc t => by
    rw [hstep, if_pos (mt hbase.mpr hc)]
  rw [hsplit, amountAt, hs]
  unfold KVPair.change at *
  cases hdel : p.delete with
  | true =>
    refine ⟨hskip, fun _ hlt => absurd hlt (lt_irrefl 0), fun hc _ t _ => ?_⟩
    rw [hstep, if_neg (not_not.mpr (hbase.mp hc))]
    simp [tallyBaseBalance, hdel, weigh]
  | false =>
    refine ⟨hskip, fun hc hlt t => ?_, fun hc hle t hfits => ?_⟩
    all_goals
      obtain ⟨amt, hamt⟩ := (hwritten (by rw [hdel]; rfl)).balance hc
      obtain ⟨coin, hcoin, hamount⟩ := Option.map_eq_some_iff.mp hamt
      simp only [weigh, coinAmount, hamt, Option.join_some, Option.getD_some, Bool.false_eq_true,
        if_false] at *
      simp only [hstep, hbase.mp hc, ne_eq, not_true_eq_false, if_false, tallyBaseBalance, hdel,
        Bool.false_eq_true, hcoin, hamount, SdkInt.isNegativePtr, Outcome.ok_bind,
        decide_eq_true_eq]
    · rw [if_pos hlt]
      exact ⟨_, rfl⟩
    · rw [if_neg (not_lt.mpr hle), SdkInt.addPtr, SdkInt.add_eq_ok.mpr ⟨hfits, rfl⟩]
      rfl

theorem tallyWei_tallies {p : KVPair} {s : SortedStore Bytes Bytes}
    (hs : s.get p.key = p.change) (hkey : WeiKey bt p.key)
    (hwritten : ∀ {value}, p.change = some value → Written bt p.key value) :
    Tallies (tallyWei bt) (WeiKey bt p.key) p.key.tail (amountAt (intAmount bt) s p.key) p := by
  obtain ⟨addr, haddr⟩ : ∃ addr, p.key = bt.weiBalancesPrefix :: addr :=
    List.head?_eq_some_iff.mp hkey
  rw [amountAt, hs]
  unfold KVPair.change at *
  cases hdel : p.delete with
  | true =>
    refine ⟨absurd hkey, fun _ hlt => absurd hlt (lt_irrefl 0), fun _ _ t _ => ?_⟩
    simp [tallyWei, haddr, hdel, weigh]
  | false =>
    obtain ⟨amt, hamt⟩ := (hwritten (by rw [hdel]; rfl)).wei hkey
    simp only [Bool.false_eq_true, if_false, weigh, intAmount, hamt, Option.join_some,
      Option.getD_some]
    refine ⟨absurd hkey, fun _ hlt t => ?_, fun _ hle t hfits => ?_⟩
    all_goals
      simp only [tallyWei, haddr, hdel, Bool.false_eq_true, if_false, hamt, SdkInt.isNegativePtr,
        Outcome.ok_bind, decide_eq_true_eq, SdkInt.addPtr]
    · -- the amount is added first, so it may also be the addition that panics
      cases SdkInt.add t.postTotal amt with
      | error e => exact ⟨e, rfl⟩
      | ok z =>
        rw [Outcome.ok_bind, if_pos hlt]
        exact ⟨_, rfl⟩
    · rw [SdkInt.add_eq_ok.mpr ⟨hfits, rfl⟩, Outcome.ok_bind, if_neg (not_lt.mpr hle)]
      rfl

theorem supplyChanged_cases (pre : Option ℤ) {ps : List KVPair}
    (hps : ∀ p ∈ ps, p.key.head? = some bt.supplyKey) :
    (∃ p ∈ ps, p.key = bt.supplyKey :: bt.baseDenom ∧
      supplyChanged bt pre ps = supplyChange bt pre p) ∨
    ((∀ p ∈ ps, p.key ≠ bt.supplyKey :: bt.baseDenom) ∧ supplyChanged bt pre ps = .ok 0) := by
  induction ps with
  | nil => exact .inr ⟨nofun, rfl⟩
  | cons p ps ih =>
    obtain ⟨denom, hkey⟩ : ∃ denom, p.key = bt.supplyKey :: denom :=
      List.head?_eq_some_iff.mp (hps p List.mem_cons_self)
    simp only [supplyChanged, hkey]
    by_cases e : denom = bt.baseDenom
    · exact .inl ⟨p, List.mem_cons_self, by rw [hkey, e], if_pos e⟩
    · rw [if_neg e]
      rcases ih fun q hq => hps q (List.mem_cons_of_mem _ hq) with ⟨q, hq, h⟩ | ⟨hnone, h⟩
      · exact .inl ⟨q, List.mem_cons_of_mem _ hq, h⟩
      · refine .inr ⟨List.forall_mem_cons.mpr ⟨?_, hnone⟩, h⟩
        rw [hkey]
        exact fun h => e (List.cons.inj h).2

namespace Block

variable (b : Block bt)

theorem mem_getChangedPairs {pre : UInt8} {p : KVPair} :
    p ∈ b.store.getChangedPairs pre ↔ p ∈ b.changeSet ∧ p.key.head? = some pre := by
  rw [CommitmentStore.getChangedPairs, List.mem_filter, decide_eq_true_eq]
  rfl

theorem preTotalSupply_eq : preTotalSupply bt b.store = some (some (supply bt b.pre)) := by
  unfold preTotalSupply supply amountAt CommitmentStore.get store
  cases hget : b.pre.get (bt.supplyKey :: bt.baseDenom) with
  | none => rfl
  | some value =>
    obtain ⟨amt, hamt⟩ := (b.pre_written hget).supply rfl
    simp [weigh, intAmount, hamt]

theorem supplyChanged_eq (hfits : SdkInt.Fits (supply bt b.post - supply bt b.pre)) :
    supplyChanged bt (some (supply bt b.pre)) (b.store.getChangedPairs bt.supplyKey) =
      .ok (supply bt b.post - supply bt b.pre) := by
  rcases supplyChanged_cases (some (supply bt b.pre))
    (fun p hp => (b.mem_getChangedPairs.mp hp).2) with ⟨p, hp, hkey, h⟩ | ⟨hnone, h⟩
  · have hmem := (b.mem_getChangedPairs.mp hp).1
    have hpost : supply bt b.post = weigh (fun _ => intAmount bt) p.key p.change := by
      rw [supply, amountAt, ← hkey, b.post_get hmem]
    rw [hpost] at hfits ⊢
    rw [h]
    unfold supplyChange KVPair.change at *
    cases hdel : p.delete with
    | true => simp [SdkInt.negPtr, weigh]
    | false =>
      obtain ⟨amt, hamt⟩ := (b.written p hmem (by rw [KVPair.change, hdel]; rfl)).supply hkey
      simp only [hdel, Bool.false_eq_true, if_false, weigh, intAmount, hamt, Option.join_some,
        Option.getD_some] at hfits ⊢
      exact SdkInt.sub_eq_ok.mpr ⟨hfits, rfl⟩
  · have hpost : supply bt b.post = supply bt b.pre := by
      rw [supply, supply, amountAt, amountAt, b.post_get_of_not_mem]
      intro p hp hkey
      exact hnone p (b.mem_getChangedPairs.mpr ⟨hp, by rw [hkey]; rfl⟩) hkey
    rw [h, hpost, sub_self]

def totals : Totals where
  atabiPre := (b.amounts (BaseBalanceKey bt) (coinAmount bt) b.pre).sum
  atabiPost := (b.amounts (BaseBalanceKey bt) (coinAmount bt) b.post).sum
  weiPre := (b.amounts (WeiKey bt) (intAmount bt) b.pre).sum
  weiPost := (b.amounts (WeiKey bt) (intAmount bt) b.post).sum
  preSupply := some (supply bt b.pre)
  supplyChanged := supply bt b.post - supply bt b.pre

structure InRange : Prop where
  atabiPre : SdkInt.FitsAlong 0 (b.amounts (BaseBalanceKey bt) (coinAmount bt) b.pre)
  atabiPost : SdkInt.FitsAlong 0 (b.amounts (BaseBalanceKey bt) (coinAmount bt) b.post)
  weiPre : SdkInt.FitsAlong 0 (b.amounts (WeiKey bt) (intAmount bt) b.pre)
  weiPost : SdkInt.FitsAlong 0 (b.amounts (WeiKey bt) (intAmount bt) b.post)
  supply : SdkInt.Fits (supply bt b.post - supply bt b.pre)
  totals : b.totals.InRange

def NegativeBalance : Prop :=
  ∃ p ∈ b.changeSet, BaseBalanceKey bt p.key ∧ amountAt (coinAmount bt) b.post p.key < 0

def NegativeWei : Prop :=
  ∃ p ∈ b.changeSet, WeiKey bt p.key ∧ amountAt (intAmount bt) b.post p.key < 0

theorem baseBalanceKey_head {key : Bytes} (h : BaseBalanceKey bt key) :
    key.head? = some bt.balancesPrefix := by
  obtain ⟨addr, -, -, rfl⟩ := h
  rfl

theorem changed_atabi :
    ((b.store.getChangedPairs bt.balancesPrefix).filter fun p => BaseBalanceKey bt p.key) =
      b.changed (BaseBalanceKey bt) := by
  rw [CommitmentStore.getChangedPairs, List.filter_filter, changed, store]
  refine List.filter_congr fun p _ => ?_
  by_cases h : BaseBalanceKey bt p.key
  · simp [h, baseBalanceKey_head h]
  · simp [h]

theorem changed_wei :
    ((b.store.getChangedPairs bt.weiBalancesPrefix).filter fun p => WeiKey bt p.key) =
      b.changed (WeiKey bt) := by
  rw [CommitmentStore.getChangedPairs, List.filter_filter, changed, store]
  refine List.filter_congr fun p _ => ?_
  by_cases h : WeiKey bt p.key
  · have hhead : p.key.head? = some bt.weiBalancesPrefix := h
    simp [h, hhead]
  · simp [h]

theorem atabi_tallies : ∀ p ∈ b.store.getChangedPairs bt.balancesPrefix,
    Tallies (tallyBalance bt) (BaseBalanceKey bt p.key)
      (((splitBalanceKey p.key).map Prod.fst).getD [])
      (amountAt (coinAmount bt) b.post p.key) p := by
  intro p hp
  obtain ⟨hmem, hhead⟩ := b.mem_getChangedPairs.mp hp
  exact tallyBalance_tallies (b.post_get hmem) (b.keys p hmem hhead) (b.written p hmem)

theorem wei_tallies : ∀ p ∈ b.store.getChangedPairs bt.weiBalancesPrefix,
    Tallies (tallyWei bt) (WeiKey bt p.key) p.key.tail
      (amountAt (intAmount bt) b.post p.key) p := by
  intro p hp
  obtain ⟨hmem, hhead⟩ := b.mem_getChangedPairs.mp hp
  exact tallyWei_tallies (b.post_get hmem) hhead (b.written p hmem)

theorem atabi_keys :
    ((b.changed (BaseBalanceKey bt)).map
        fun p => ((splitBalanceKey p.key).map Prod.fst).getD []).map
      (fun a => createAccountBalancesPrefix bt a ++ bt.baseDenom) =
      (b.changed (BaseBalanceKey bt)).map KVPair.key := by
  rw [List.map_map]
  refine List.map_congr_left fun p hp => ?_
  obtain ⟨addr, hne, hlen, hkey⟩ := (b.mem_changed.mp hp).2
  rw [Function.comp_apply, hkey, splitBalanceKey_eq hne hlen]
  rfl

theorem wei_keys :
    ((b.changed (WeiKey bt)).map fun p => p.key.tail).map (fun a => bt.weiBalancesPrefix :: a) =
      (b.changed (WeiKey bt)).map KVPair.key := by
  rw [List.map_map]
  refine List.map_congr_left fun p hp => ?_
  obtain ⟨addr, hkey⟩ := List.head?_eq_some_iff.mp (b.mem_changed.mp hp).2
  rw [Function.comp_apply, hkey]
  rfl

theorem pre_loop {kind : Bytes → Prop} [DecidablePred kind]
    {unmarshal : Bytes → Option (Option ℤ)}
    (hstored : ∀ {key value}, kind key → b.pre.get key = some value →
      ∃ amt, unmarshal value = some (some amt))
    (hfits : SdkInt.FitsAlong 0 (b.amounts kind (fun v => (unmarshal v).join.getD 0) b.pre)) :
    ((b.changed kind).map KVPair.key).foldlM (addPre unmarshal b.store) 0 =
      .ok (b.amounts kind (fun v => (unmarshal v).join.getD 0) b.pre).sum := by
  have hamounts : b.amounts kind (fun v => (unmarshal v).join.getD 0) b.pre =
      ((b.changed kind).map KVPair.key).map
        (amountAt (fun v => (unmarshal v).join.getD 0) b.store.tree) := by
    rw [List.map_map]
    rfl
  rw [hamounts] at hfits ⊢
  rw [addPre_returns ?_ 0 hfits, zero_add]
  intro key hkey value hget
  obtain ⟨p, hp, rfl⟩ := List.mem_map.mp hkey
  exact hstored (b.mem_changed.mp hp).2 hget

theorem atabi_loops (h : b.InRange) (hneg : ¬ b.NegativeBalance) :
    ∃ t, (b.store.getChangedPairs bt.balancesPrefix).foldlM (tallyBalance bt) ⟨0, []⟩ = .ok t ∧
      t.postTotal = b.totals.atabiPost ∧
      atabiPreTotal bt b.store t.changedAddrs = .ok b.totals.atabiPre := by
  have hnonneg : ∀ p ∈ b.store.getChangedPairs bt.balancesPrefix, BaseBalanceKey bt p.key →
      0 ≤ amountAt (coinAmount bt) b.post p.key := fun p hp hbase =>
    not_lt.mp fun hlt => hneg ⟨p, (b.mem_getChangedPairs.mp hp).1, hbase, hlt⟩
  have hloop := tally_returns b.atabi_tallies hnonneg ⟨0, []⟩
    (by rw [b.changed_atabi]; exact h.atabiPost)
  rw [b.changed_atabi] at hloop
  refine ⟨_, hloop, zero_add _, ?_⟩
  rw [atabiPreTotal, List.nil_append, b.atabi_keys]
  exact b.pre_loop (fun hkey hget => (b.pre_written hget).balance hkey) h.atabiPre

theorem wei_loops (h : b.InRange) (hneg : ¬ b.NegativeWei) :
    ∃ t, (b.store.getChangedPairs bt.weiBalancesPrefix).foldlM (tallyWei bt) ⟨0, []⟩ = .ok t ∧
      t.postTotal = b.totals.weiPost ∧
      weiPreTotal bt b.store t.changedAddrs = .ok b.totals.weiPre := by
  have hnonneg : ∀ p ∈ b.store.getChangedPairs bt.weiBalancesPrefix, WeiKey bt p.key →
      0 ≤ amountAt (intAmount bt) b.post p.key := fun p hp hwei =>
    not_lt.mp fun hlt => hneg ⟨p, (b.mem_getChangedPairs.mp hp).1, hwei, hlt⟩
  have hloop := tally_returns b.wei_tallies hnonneg ⟨0, []⟩
    (by rw [b.changed_wei]; exact h.weiPost)
  rw [b.changed_wei] at hloop
  refine ⟨_, hloop, zero_add _, ?_⟩
  rw [weiPreTotal, List.nil_append, b.wei_keys]
  exact b.pre_loop (fun hkey hget => (b.pre_written hget).wei hkey) h.weiPre

theorem excess_post_iff :
    (b.totals.atabiPost - b.totals.atabiPre) * atabiToWeiMultiplier +
        (b.totals.weiPost - b.totals.weiPre) = b.totals.supplyChanged * atabiToWeiMultiplier ↔
      excess bt b.post = excess bt b.pre := by
  have hatabi := b.totalWhere_post (BaseBalanceKey bt) (coinAmount bt)
  have hwei := b.totalWhere_post (WeiKey bt) (intAmount bt)
  have hm : atabiToWeiMultiplier = 1000000000000 := rfl
  simp only [excess, atabiTotal, weiTotal, hatabi, hwei, totals, hm]
  omega

end Block

/-- **The check is the law**: within `sdk.Int`, it panics exactly when a changed balance is
negative after the block, or the excess of the whole store over the supply changed. -/
theorem lightInvarianceTotalSupply_panics_iff (b : Block bt) (h : b.InRange) :
    (∃ e, lightInvarianceTotalSupply bt (some b.store) = .error e) ↔
      b.NegativeBalance ∨ b.NegativeWei ∨ excess bt b.post ≠ excess bt b.pre := by
  unfold lightInvarianceTotalSupply
  by_cases hbal : b.NegativeBalance
  · obtain ⟨p, hp, hbase, hlt⟩ := hbal
    obtain ⟨e, he⟩ := tally_panics b.atabi_tallies
      ⟨p, b.mem_getChangedPairs.mpr ⟨hp, Block.baseBalanceKey_head hbase⟩, hbase, hlt⟩ ⟨0, []⟩
    exact ⟨fun _ => .inl ⟨p, hp, hbase, hlt⟩, fun _ => ⟨e, by simp only [he, Outcome.error_bind]⟩⟩
  obtain ⟨t, hloop, hpost, hpre⟩ := b.atabi_loops h hbal
  simp only [hloop, Outcome.ok_bind, hpre]
  by_cases hwei : b.NegativeWei
  · obtain ⟨p, hp, hkey, hlt⟩ := hwei
    obtain ⟨e, he⟩ := tally_panics b.wei_tallies
      ⟨p, b.mem_getChangedPairs.mpr ⟨hp, hkey⟩, hkey, hlt⟩ ⟨0, []⟩
    exact ⟨fun _ => .inr (.inl ⟨p, hp, hkey, hlt⟩), fun _ => ⟨e, by rw [he]; rfl⟩⟩
  obtain ⟨t', hloop', hpost', hpre'⟩ := b.wei_loops h hwei
  simp only [hloop', Outcome.ok_bind, hpre', b.preTotalSupply_eq, b.supplyChanged_eq h.supply,
    hpost, hpost', hbal, hwei, false_or]
  rw [ne_eq, ← b.excess_post_iff, ← compareTotals_returns_iff h.totals]
  change (∃ e, compareTotals b.totals = .error e) ↔ _
  cases compareTotals b.totals with
  | ok u => simp
  | error e => simp

def plainBank : BankTypes where
  balancesPrefix := 2
  weiBalancesPrefix := 4
  supplyKey := 0
  unmarshalCoin value := some ⟨[97], some (beNat value)⟩
  unmarshalInt value := some (some (beNat value))
  baseDenom := [97]
  accAddressString _ := ""
  coinString _ := ""

def paidInWei : Block plainBank where
  pre := ⟨[([0, 97], [5]), ([2, 1, 1, 97], [5])], by decide⟩
  changeSet := [⟨false, [2, 1, 1, 97], [4]⟩, ⟨false, [4, 2], [0xe8, 0xd4, 0xa5, 0x10, 0x00]⟩]
  pre_written _ := ⟨fun _ => ⟨_, rfl⟩, fun _ => ⟨_, rfl⟩, fun _ => ⟨_, rfl⟩⟩
  keys := by
    intro p hp hhead
    rcases List.mem_cons.mp hp with rfl | hp
    · exact ⟨[97], [1], by decide, by decide, rfl⟩
    · rw [List.mem_singleton.mp hp] at hhead
      cases hhead
  written _ _ _ _ := ⟨fun _ => ⟨_, rfl⟩, fun _ => ⟨_, rfl⟩, fun _ => ⟨_, rfl⟩⟩
  unique := by decide

theorem lightInvarianceTotalSupply_paidInWei :
    ¬ ∃ e, lightInvarianceTotalSupply plainBank (some paidInWei.store) = .error e := by
  have hrange : paidInWei.InRange :=
    ⟨by decide, by decide, by decide, by decide, by decide,
      ⟨by decide, by decide, by decide, by decide⟩⟩
  rw [lightInvarianceTotalSupply_panics_iff paidInWei hrange]
  unfold Block.NegativeBalance Block.NegativeWei
  decide

end Tabi.Supply
