import Tabi.Precompile.Executors
import Tabi.Support.Transfer
import Mathlib.Algebra.Group.Pi.Basic
import Mathlib.Algebra.Order.BigOperators.Group.List

/-!
# Precompile — what `executeBatch` spends

A batch of wasm messages spends the value of its call.
-/

namespace Tabi.Precompile

open Support GasM

variable {σ : Type}

def amountIn (coins : Coins) (denom : Bytes) : ℤ :=
  ((coins.filter fun coin => coin.1 = denom).map Prod.snd).sum

/-- `Coins.IsValid`, as far as it is assumed: sorted by denom, without duplicates, and positive. -/
structure ValidCoins (coins : Coins) : Prop where
  sorted : coins.Pairwise fun coin coin' => coin.1 < coin'.1
  positive : ∀ coin ∈ coins, 0 < coin.2

variable {coins : Coins} {msgs : List ExecuteMsg}

theorem ValidCoins.amountIn_nonneg (h : ValidCoins coins) (denom : Bytes) :
    0 ≤ amountIn coins denom := by
  refine List.sum_nonneg fun n hn => ?_
  obtain ⟨coin, hcoin, rfl⟩ := List.mem_map.mp hn
  exact (h.positive coin (List.mem_of_mem_filter hcoin)).le

structure Readings (σ : Type) where
  accAddress : Bytes → Option AccAddress
  coins : Bytes → Option Coins
  tabiAddress : σ → Address → Option AccAddress
  tabiAddressOrDefault : σ → Address → AccAddress
  balances : σ → AccAddress → Bytes → ℤ

structure Follows (K : Keepers σ) (R : Readings σ) : Prop where
  accAddressFromBech32 : ∀ text,
    Reads (K.accAddressFromBech32 text) fun _ a => R.accAddress text = some a
  unmarshalCoins : ∀ bz, Reads (K.unmarshalCoins bz) fun _ coins => R.coins bz = some coins
  amountOf : ∀ coins denom, Reads (K.amountOf coins denom) fun _ n =>
    ValidCoins coins → n = amountIn coins denom
  newCoin : ∀ denom n, Reads (K.newCoin denom n) fun _ coin => coin = (denom, n)
  newCoins : ∀ l, Reads (K.newCoins l) fun _ coins => amountIn coins = amountIn l
  validateMsgExecute : ∀ msg, Reads (K.validateMsgExecute msg) fun _ _ => ValidCoins msg.funds
  getTabiAddress : ∀ e, Reads (K.getTabiAddress e) fun s t => t = R.tabiAddress s e
  getTabiAddressOrDefault : ∀ e,
    Reads (K.getTabiAddressOrDefault e) fun s t => t = R.tabiAddressOrDefault s e
  getERC20CW20Pointer : ∀ a, Reads (K.getERC20CW20Pointer a) fun _ _ => True
  getERC721CW721Pointer : ∀ a, Reads (K.getERC721CW721Pointer a) fun _ _ => True
  getERC1155CW1155Pointer : ∀ a, Reads (K.getERC1155CW1155Pointer a) fun _ _ => True
  sendCoins : ∀ {a b coins m w u w'}, K.sendCoins a b coins m w = .ok (u, w') →
    R.balances w'.store = moved (R.balances w.store) a b (amountIn coins)

section Spends

variable (K : Keepers σ) (R : Readings σ) (m : GasMeter) (c : CallInfo)

def ExecuteMsg.amount (e : ExecuteMsg) : ℤ :=
  match R.coins e.coins with
  | some coins => amountIn coins K.baseDenom
  | none => 0

def Refunds (sender : AccAddress) (amount : ℤ) (s s' : σ) : Prop :=
  R.balances s' = moved (R.balances s) (R.tabiAddressOrDefault s Wasmd.address) sender
    (amountIn [(K.baseDenom, amount)])

def Executes (sender : AccAddress) (e : ExecuteMsg) (res : Bytes) (s s' : σ) : Prop :=
  ∃ contract coins w w', R.accAddress e.contractAddress = some contract ∧
    R.coins e.coins = some coins ∧ w.store = s ∧ w'.store = s' ∧
    K.wasmExecute contract sender e.msg coins m w = .ok (res, w')

inductive Spends : List ExecuteMsg → σ → σ → List Bytes → ℤ → Prop where
  | nil (s : σ) : Spends [] s s [] 0
  | cons {e : ExecuteMsg} {msgs : List ExecuteMsg} {s s₁ s₂ s' : σ} {sender : AccAddress}
      {res : Bytes} {responses : List Bytes} {paid : ℤ}
      (hsender : R.tabiAddress s c.caller = some sender)
      (hrefund : Refunds K R sender (e.amount K R) s s₁)
      (hexec : Executes K R m sender e res s₁ s₂) (hrest : Spends msgs s₂ s' responses paid) :
      Spends (e :: msgs) s s' (res :: responses) (e.amount K R + paid)

end Spends

variable {K : Keepers σ} {R : Readings σ} {m : GasMeter} {c : CallInfo} {w w' : World σ}

theorem Spends.length_eq {s s' : σ} {responses : List Bytes} {paid : ℤ}
    (h : Spends K R m c msgs s s' responses paid) : responses.length = msgs.length := by
  induction h with
  | nil => rfl
  | cons _ _ _ _ ih => rw [List.length_cons, List.length_cons, ih]

theorem Spends.paid_eq {s s' : σ} {responses : List Bytes} {paid : ℤ}
    (h : Spends K R m c msgs s s' responses paid) :
    paid = (msgs.map (ExecuteMsg.amount K R)).sum := by
  induction h with
  | nil => rfl
  | cons _ _ _ _ ih => rw [List.map_cons, List.sum_cons, ih]

theorem refunds_zero (sender : AccAddress) (s : σ) : Refunds K R sender 0 s s := by
  have hnone : amountIn [(K.baseDenom, 0)] = 0 := by
    funext d
    unfold amountIn
    by_cases e : K.baseDenom = d <;> simp [e]
  rw [Refunds, hnone]
  funext x
  rw [moved, ite_self, ite_self, sub_zero, add_zero]

theorem checkPointer_ok (F : Follows K R) {addr : Bytes} {u : Unit}
    (h : Wasmd.checkPointer K c addr m w = .ok (u, w')) : w'.store = w.store := by
  unfold Wasmd.checkPointer at h
  split at h
  · obtain ⟨_, w₁, h₁, h⟩ := steps_iff.mp h
    obtain ⟨_, w₂, h₂, h⟩ := steps_iff.mp h
    obtain ⟨_, w₃, h₃, h⟩ := steps_iff.mp h
    have hstore : w₃.store = w.store := (F.getERC1155CW1155Pointer _ h₃).2.trans
      ((F.getERC721CW721Pointer _ h₂).2.trans (F.getERC20CW20Pointer _ h₁).2)
    split at h
    · cases h
    · cases h
      exact hstore
  · cases h
    rfl

theorem pay_ok (F : Follows K R) {payer : AccAddress} {amt : ℤ} {coin : Bytes × ℤ}
    (h : Wasmd.pay K payer amt m w = .ok (coin, w')) : Refunds K R payer amt w.store w'.store := by
  unfold Wasmd.pay at h
  obtain ⟨wei, w₁, hwei, h⟩ := steps_iff.mp h
  obtain ⟨hwei, hw₁⟩ := ofOutcome_eq_ok.mp hwei
  obtain ⟨own, w₂, hown, h⟩ := steps_iff.mp h
  obtain ⟨hown, hw₂⟩ := F.getTabiAddressOrDefault _ hown
  unfold handlePaymentUtabi at h
  obtain ⟨⟨atabi, rest⟩, w₃, hsplit, h⟩ := steps_iff.mp h
  obtain ⟨hsplit, hw₃⟩ := ofOutcome_eq_ok.mp hsplit
  obtain ⟨-, h⟩ := guard_eq_ok.mp h
  obtain ⟨coin', w₄, hcoin, h⟩ := steps_iff.mp h
  obtain ⟨hcoin, hw₄⟩ := F.newCoin _ _ hcoin
  obtain ⟨coins, w₅, hcoins, h⟩ := steps_iff.mp h
  obtain ⟨hcoins, hw₅⟩ := F.newCoins _ hcoins
  obtain ⟨u, w₆, hsend, h⟩ := steps_iff.mp h
  cases h
  have hstore : w₅.store = w.store := by rw [hw₅, hw₄, hw₃, hw₂, hw₁]
  obtain ⟨hfits, rfl⟩ := SdkInt.ofBig_eq_ok.mp hwei
  rw [splitAtabiWeiAmount_ok hfits] at hsplit
  cases hsplit
  rw [Refunds, F.sendCoins hsend, hstore, hcoins, hcoin, hown, hw₁,
    Int.mul_tdiv_cancel amt (by decide)]

theorem validated_ok (F : Follows K R) {left left' : Option ℤ} {msg : MsgExecuteContract}
    {contract sender : AccAddress} {body res : Bytes}
    (h : (do
      K.validateMsgExecute msg
      let res ← K.wasmExecute contract sender body coins
      return (left, res) : GasM σ (Option ℤ × Bytes)) m w = .ok ((left', res), w')) :
    left' = left ∧ ValidCoins msg.funds ∧
      ∃ w₁, w₁.store = w.store ∧ K.wasmExecute contract sender body coins m w₁ = .ok (res, w') := by
  obtain ⟨_, w₁, hvalid, h⟩ := steps_iff.mp h
  obtain ⟨hvalid, hw₁⟩ := F.validateMsgExecute _ hvalid
  obtain ⟨res', w₂, hexec, h⟩ := steps_iff.mp h
  cases h
  exact ⟨rfl, hvalid, w₁, hw₁, hexec⟩

theorem executeOne_ok (F : Follows K R) {left left' : Option ℤ} {e : ExecuteMsg} {res : Bytes}
    (h : Wasmd.executeOne K c left e m w = .ok ((left', res), w')) :
    ∃ sender coins s₁, R.tabiAddress w.store c.caller = some sender ∧
      R.coins e.coins = some coins ∧ ValidCoins coins ∧ left'.isSome = left.isSome ∧
      (if left.isSome then Refunds K R sender (amountIn coins K.baseDenom) w.store s₁
        else s₁ = w.store) ∧
      Executes K R m sender e res s₁ w'.store := by
  unfold Wasmd.executeOne at h
  obtain ⟨_, w₁, hpointer, h⟩ := steps_iff.mp h
  have hw₁ := checkPointer_ok F hpointer
  obtain ⟨contract, w₂, hcontract, h⟩ := steps_iff.mp h
  obtain ⟨hcontract, hw₂⟩ := F.accAddressFromBech32 _ hcontract
  obtain ⟨assoc, w₃, hassoc, h⟩ := steps_iff.mp h
  obtain ⟨hassoc, hw₃⟩ := F.getTabiAddress _ hassoc
  cases assoc with
  | none => cases h
  | some sender =>
    obtain ⟨coins, w₄, hcoins, h⟩ := steps_iff.mp h
    obtain ⟨hcoins, hw₄⟩ := F.unmarshalCoins _ hcoins
    obtain ⟨amt, w₅, hamt, h⟩ := steps_iff.mp h
    obtain ⟨hamt, hw₅⟩ := F.amountOf _ _ hamt
    have hstore : w₅.store = w.store := by rw [hw₅, hw₄, hw₃, hw₂, hw₁]
    have hsender : R.tabiAddress w.store c.caller = some sender := by
      rw [hassoc, hw₂, hw₁]
    obtain ⟨left₁, w₆, hleft, hpaid, hrest⟩ : ∃ left₁ w₆, left₁.isSome = left.isSome ∧
        (if left.isSome then Refunds K R sender amt w₅.store w₆.store
          else w₆.store = w₅.store) ∧
        (do
          K.validateMsgExecute ⟨K.accAddressString sender, K.accAddressString contract, e.msg,
            coins⟩
          let res ← K.wasmExecute contract sender e.msg coins
          return (left₁, res) : GasM σ (Option ℤ × Bytes)) m w₆ = .ok ((left', res), w') := by
      cases left with
      | none => exact ⟨none, w₅, rfl, rfl, h⟩
      | some v =>
        dsimp only at h
        split at h
        · obtain ⟨coin, w₆, hpay, h⟩ := steps_iff.mp h
          obtain ⟨-, h⟩ := guard_eq_ok.mp h
          obtain ⟨-, h⟩ := guard_eq_ok.mp h
          exact ⟨some (v - amt * atabiToWeiMultiplier), w₆, rfl, pay_ok F hpay, h⟩
        · rename_i hzero
          rw [not_not.mp hzero]
          exact ⟨some v, w₅, rfl, refunds_zero sender w₅.store, h⟩
    obtain ⟨rfl, hvalid, w₇, hw₇, hexec⟩ := validated_ok F hrest
    rw [hamt hvalid, hstore] at hpaid
    exact ⟨sender, coins, w₆.store, hsender, hcoins, hvalid, hleft, hpaid, contract, coins, w₇,
      w', hcontract, hcoins, hw₇, rfl, hexec⟩

def spendRound (K : Keepers σ) (c : CallInfo) (acc : Option ℤ × List Bytes) (e : ExecuteMsg) :
    GasM σ (Option ℤ × List Bytes) := do
  let (left, res) ← Wasmd.executeOne K c acc.1 e
  return (left, acc.2 ++ [res])

theorem rounds_valid (F : Follows K R) {acc acc' : Option ℤ × List Bytes}
    (h : msgs.foldlM (spendRound K c) acc m w = .ok (acc', w')) :
    ∀ e ∈ msgs, ∃ coins, R.coins e.coins = some coins ∧ ValidCoins coins := by
  induction msgs generalizing acc w with
  | nil => exact List.forall_mem_nil _
  | cons e msgs ih =>
    rw [List.foldlM_cons] at h
    obtain ⟨acc₁, w₁, hround, h⟩ := steps_iff.mp h
    obtain ⟨⟨left, res⟩, w₂, hone, hret⟩ := steps_iff.mp hround
    cases hret
    obtain ⟨sender, coins, s₁, -, hcoins, hvalid, -⟩ := executeOne_ok F hone
    exact List.forall_mem_cons.mpr ⟨⟨coins, hcoins, hvalid⟩, ih h⟩

theorem amount_eq {e : ExecuteMsg} (h : R.coins e.coins = some coins) :
    e.amount K R = amountIn coins K.baseDenom := by
  unfold ExecuteMsg.amount
  rw [h]

theorem rounds_spend (F : Follows K R) {acc acc' : Option ℤ × List Bytes}
    (h : msgs.foldlM (spendRound K c) acc m w = .ok (acc', w'))
    (hzero : acc.1 = none → ∀ e ∈ msgs, e.amount K R = 0) :
    ∃ responses paid, acc'.2 = acc.2 ++ responses ∧
      Spends K R m c msgs w.store w'.store responses paid := by
  induction msgs generalizing acc w with
  | nil =>
    cases h
    exact ⟨[], 0, (List.append_nil _).symm, .nil _⟩
  | cons e msgs ih =>
    rw [List.foldlM_cons] at h
    obtain ⟨acc₁, w₁, hround, h⟩ := steps_iff.mp h
    obtain ⟨⟨left, res⟩, w₂, hone, hret⟩ := steps_iff.mp hround
    cases hret
    obtain ⟨sender, coins, s₁, hsender, hcoins, -, hleft, hpaid, hexec⟩ := executeOne_ok F hone
    rw [← amount_eq hcoins] at hpaid
    have hrefund : Refunds K R sender (e.amount K R) w.store s₁ := by
      split at hpaid
      · exact hpaid
      · rename_i hnone
        have hvalue : acc.1 = none := Option.not_isSome_iff_eq_none.mp hnone
        rw [hzero hvalue e List.mem_cons_self, hpaid]
        exact refunds_zero sender w.store
    obtain ⟨responses, paid, hresponses, hrest⟩ := ih h fun hnone e' he' => by
      have hvalue : acc.1 = none := by
        rw [show left = none from hnone] at hleft
        exact Option.not_isSome_iff_eq_none.mp (hleft ▸ Bool.false_ne_true)
      exact hzero hvalue e' (List.mem_cons_of_mem e he')
    refine ⟨res :: responses, e.amount K R + paid, ?_, .cons hsender hrefund hexec hrest⟩
    rw [hresponses, List.append_assoc]
    rfl

def addUp (K : Keepers σ) (sum : ℤ) (e : ExecuteMsg) : GasM σ ℤ := do
  return sum + (← Wasmd.coinsValue K (← K.unmarshalCoins e.coins))

theorem addUps_ok (F : Follows K R) {sum total : ℤ}
    (h : msgs.foldlM (addUp K) sum m w = .ok (total, w')) :
    w'.store = w.store ∧
      ((∀ e ∈ msgs, ∃ coins, R.coins e.coins = some coins ∧ ValidCoins coins) →
        total = sum + (msgs.map (ExecuteMsg.amount K R)).sum * atabiToWeiMultiplier) := by
  induction msgs generalizing sum w with
  | nil =>
    cases h
    exact ⟨rfl, fun _ => by rw [List.map_nil, List.sum_nil, zero_mul, add_zero]⟩
  | cons e msgs ih =>
    rw [List.foldlM_cons] at h
    obtain ⟨sum₁, w₁, hone, h⟩ := steps_iff.mp h
    obtain ⟨coins, w₂, hcoins, hone⟩ := steps_iff.mp hone
    obtain ⟨hcoins, hw₂⟩ := F.unmarshalCoins _ hcoins
    obtain ⟨wei, w₃, hwei, hone⟩ := steps_iff.mp hone
    cases hone
    obtain ⟨amt, w₄, hamt, hwei⟩ := steps_iff.mp hwei
    obtain ⟨hamt, hw₄⟩ := F.amountOf _ _ hamt
    obtain ⟨hmul, hw₃⟩ := ofOutcome_eq_ok.mp hwei
    obtain ⟨hstore, htotal⟩ := ih h
    refine ⟨by rw [hstore, hw₃, hw₄, hw₂], fun hvalid => ?_⟩
    obtain ⟨⟨coins', hcoins', hvalid₁⟩, hvalid⟩ := List.forall_mem_cons.mp hvalid
    cases hcoins.symm.trans hcoins'
    rw [htotal hvalid, (SdkInt.ofBig_eq_ok.mp hmul).2, hamt hvalid₁, ← amount_eq hcoins,
      List.map_cons, List.sum_cons, add_mul, add_assoc]

theorem sum_of_matched {value : Option ℤ} {amounts : List ℤ} (hnonneg : ∀ n ∈ amounts, 0 ≤ n)
    (h : ¬ Wasmd.mismatched value (amounts.sum * atabiToWeiMultiplier) = true) :
    amounts.sum * atabiToWeiMultiplier = value.getD 0 := by
  cases value with
  | some v => simpa [Wasmd.mismatched] using h
  | none =>
    have hsum : 0 ≤ amounts.sum * atabiToWeiMultiplier :=
      Int.mul_nonneg (List.sum_nonneg hnonneg) (by decide)
    have hle : amounts.sum * atabiToWeiMultiplier ≤ 0 := by simpa [Wasmd.mismatched] using h
    exact le_antisymm hle hsum

/-- **A batch spends exactly the value of its call.** If `executeBatch` succeeds, the base denom
amounts of its messages are not negative and add up to the value, or to nothing if there is no
value. The precompile has paid just that to the caller's account, message by message, and each
message was executed once, in order, after its own refund and with its own coins. -/
theorem executeBatch_exact (F : Follows K R) {msgs : List ExecuteMsg} {p : Packed}
    (h : Wasmd.executeBatch K c [.executeMsgs msgs] m w = .ok (p, w')) :
    (∀ e ∈ msgs, 0 ≤ e.amount K R) ∧
      (msgs.map (ExecuteMsg.amount K R)).sum * atabiToWeiMultiplier = c.value.getD 0 ∧
      ∃ responses paid, Spends K R m c msgs w.store w'.store responses paid ∧
        paid * atabiToWeiMultiplier = c.value.getD 0 ∧ responses.length = msgs.length ∧
        p = K.pack "execute_batch" [.bytesList responses] := by
  unfold Wasmd.executeBatch at h
  obtain ⟨-, h⟩ := guard_eq_ok.mp h
  obtain ⟨_, w₁, hlen, h⟩ := steps_iff.mp h
  cases validateArgsLength_eq_ok hlen
  obtain ⟨msgs', w₂, hargs, h⟩ := steps_iff.mp h
  obtain ⟨rfl, v, hv, hproject⟩ := assertArg_eq_ok hargs
  cases hv
  cases hproject
  obtain ⟨total, w₃, htotal, h⟩ := steps_iff.mp h
  obtain ⟨hmatch, h⟩ := guard_eq_ok.mp h
  obtain ⟨⟨left, responses⟩, w₄, hloop, h⟩ := steps_iff.mp h
  obtain ⟨-, h⟩ := guard_eq_ok.mp h
  cases h
  have hrounds : msgs.foldlM (spendRound K c) (c.value, []) m w₃ =
      .ok ((left, responses), w') := hloop
  obtain ⟨hstore, htotal⟩ := addUps_ok F (show msgs.foldlM (addUp K) 0 m w₂ = _ from htotal)
  have hvalid := rounds_valid F hrounds
  have hnonneg : ∀ e ∈ msgs, 0 ≤ e.amount K R := by
    intro e he
    obtain ⟨coins, hcoins, hvalid⟩ := hvalid e he
    rw [amount_eq hcoins]
    exact hvalid.amountIn_nonneg _
  rw [htotal hvalid, zero_add] at hmatch
  have hsum := sum_of_matched (List.forall_mem_map.mpr hnonneg) hmatch
  have hzero : c.value = none → ∀ e ∈ msgs, e.amount K R = 0 := by
    intro hnone
    rw [hnone] at hsum
    have hsum₀ := (Int.mul_eq_zero.mp hsum).resolve_right (by decide)
    exact fun e he => (List.all_zero_of_le_zero_le_of_sum_eq_zero
      (List.forall_mem_map.mpr hnonneg) hsum₀) (List.mem_map_of_mem he)
  obtain ⟨responses', paid, hresponses, hspends⟩ := rounds_spend F hrounds hzero
  cases hresponses
  rw [hstore] at hspends
  exact ⟨hnonneg, hsum, responses, paid, hspends, hspends.paid_eq ▸ hsum, hspends.length_eq, rfl⟩

def tallyReadings : Readings (AccAddress → Bytes → ℤ) where
  accAddress := some
  coins
    | [n] => some [([97], n.toNat)]
    | _ => none
  tabiAddress _ e := some e.bytes
  tabiAddressOrDefault _ e := e.bytes
  balances s := s

def answer {σ α : Type} (o : Option α) : GasM σ α := fun _ w =>
  match o with
  | some a => .ok (a, w)
  | none => .error (.error [])

theorem reads_answer {α : Type} {o : Option α} {P : σ → α → Prop} (h : ∀ s a, o = some a → P s a) :
    Reads (answer o) P := by
  intro m w a w' ha
  cases o with
  | none => cases ha
  | some b =>
    cases ha
    exact ⟨h _ _ rfl, rfl⟩

def tallyKeepers : Keepers (AccAddress → Bytes → ℤ) :=
  { (default : Keepers (AccAddress → Bytes → ℤ)) with
    baseDenom := [97]
    pack := fun _ _ => .ok [1]
    accAddressFromBech32 := fun text => answer (some text)
    unmarshalCoins := fun bz => answer (tallyReadings.coins bz)
    amountOf := fun coins denom => answer (some (amountIn coins denom))
    newCoin := fun denom n => answer (some (denom, n))
    newCoins := fun l => answer (some l)
    validateMsgExecute := fun msg =>
      answer (if msg.funds.length ≤ 1 ∧ ∀ coin ∈ msg.funds, 0 < coin.2 then some () else none)
    getTabiAddress := fun e => answer (some (some e.bytes))
    getTabiAddressOrDefault := fun e => answer (some e.bytes)
    sendCoins := fun a b coins _ w =>
      .ok ((), { w with store := moved w.store a b (amountIn coins) })
    wasmExecute := fun _ _ msg _ => answer (some msg) }

theorem tallyKeepers_follow : Follows tallyKeepers tallyReadings where
  accAddressFromBech32 text := reads_answer (o := some text) fun _ _ h => h
  unmarshalCoins bz := reads_answer fun _ _ h => h
  amountOf coins denom := reads_answer fun _ _ h _ => (Option.some.inj h).symm
  newCoin denom n := reads_answer fun _ _ h => (Option.some.inj h).symm
  newCoins l := reads_answer (o := some l) fun _ _ h => by rw [Option.some.inj h]
  validateMsgExecute msg := by
    refine reads_answer fun _ _ h => ?_
    split at h
    · rename_i hvalid
      refine ⟨?_, hvalid.2⟩
      match msg.funds, hvalid.1 with
      | [], _ => exact .nil
      | [coin], _ => exact List.pairwise_singleton _ coin
    · cases h
  getTabiAddress e := reads_answer fun _ _ h => (Option.some.inj h).symm
  getTabiAddressOrDefault e := reads_answer fun _ _ h => (Option.some.inj h).symm
  getERC20CW20Pointer a m w p w' h := nomatch h
  getERC721CW721Pointer a m w p w' h := nomatch h
  getERC1155CW1155Pointer a m w p w' h := nomatch h
  sendCoins h := by
    cases h
    rfl

def batchCall : CallInfo := ⟨.zero 20, .zero 20, some 3000000000000, false, false, true, 1⟩

def twoMessages : List ExecuteMsg := [⟨[1], [5], [1]⟩, ⟨[2], [6], [2]⟩]

theorem executeBatch_exact_two : ∃ p w',
    Wasmd.executeBatch tallyKeepers batchCall [.executeMsgs twoMessages] ⟨100, id⟩
      ⟨0, fun _ _ => 0, []⟩ = .ok (p, w') ∧
      ∃ responses paid, Spends tallyKeepers tallyReadings ⟨100, id⟩ batchCall twoMessages
        (fun _ _ => 0) w'.store responses paid ∧ paid = 3 := by
  obtain ⟨p, w', h⟩ : ∃ p w',
      Wasmd.executeBatch tallyKeepers batchCall [.executeMsgs twoMessages] ⟨100, id⟩
        ⟨0, fun _ _ => 0, []⟩ = .ok (p, w') := ⟨_, _, rfl⟩
  obtain ⟨-, -, responses, paid, hspends, hpaid, -⟩ := executeBatch_exact tallyKeepers_follow h
  refine ⟨p, w', h, responses, paid, hspends, ?_⟩
  have hvalue : paid * 1000000000000 = 3000000000000 := hpaid
  omega

end Tabi.Precompile
