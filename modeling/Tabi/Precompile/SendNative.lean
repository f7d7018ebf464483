import Tabi.Precompile.Executors
import Tabi.StateDB.Destroyed
import Tabi.Support.Transfer

/-!
# Precompile — what `sendNative` moves

A value sent with the bank precompile crosses three transfers.
-/

namespace Tabi.Precompile

open Support GasM
open StateDB (DBImpl Stores Writes shown AccountLaws getTabiAddressOrDefault)

variable {β γ : Type} {k : StateDB.Keepers β γ} {s s₁ s' : DBImpl β γ}

structure Carries (k : StateDB.Keepers β γ) (s s' : DBImpl β γ) (a b : AccAddress) (δ : ℤ) :
    Prop where
  shown : shown k.bank s'.view = moved (shown k.bank s.view) a b δ
  surplus : s'.totalSurplus = s.totalSurplus

theorem Carries.trans {a b c : AccAddress} {δ : ℤ} (h : Carries k s s₁ a b δ)
    (h' : Carries k s₁ s' b c δ) : Carries k s s' a c δ where
  shown := by rw [h'.shown, h.shown, moved_moved]
  surplus := h'.surplus.trans h.surplus

theorem Carries.of_same (hshown : StateDB.shown k.bank s'.view = StateDB.shown k.bank s.view)
    (hsurplus : s'.totalSurplus = s.totalSurplus) (a : AccAddress) (δ : ℤ) :
    Carries k s s' a a δ where
  shown := by rw [hshown, moved_self]
  surplus := hsurplus

def payablePrecompiles : List Address :=
  [Bank.address, .ofBytes 20 [0x10, 0x05], .ofBytes 20 [0x10, 0x06], Wasmd.address]

def isPayablePrecompile (addr : Address) : Bool := payablePrecompiles.contains addr

/-- The `Transfer` of the block context: a payable precompile gets its value without events. -/
def transfer (k : StateDB.Keepers β γ) (s : DBImpl β γ) (sender recipient : Address) (amount : ℤ) :
    Outcome (DBImpl β γ) :=
  if isPayablePrecompile recipient then s.transferWithoutEvents k sender recipient amount
  else do
    let s ← s.subBalance k sender amount
    s.addBalance k recipient amount

theorem subBalance_totalSurplus {acc : Address} {amt : ℤ} (L : AccountLaws k.bank)
    (h : s.subBalance k acc amt = .ok s') (herr : s'.err = none) :
    s'.totalSurplus = s.totalSurplus + amt := by
  have hhist : s'.tempStatesHist = s.tempStatesHist := by
    unfold DBImpl.subBalance at h
    split_ifs at h
    · cases h
      rfl
    · obtain ⟨_, r, r', z, -, -, -, -, rfl⟩ := DBImpl.moveBalance_ok h herr
      rfl
    · obtain ⟨_, r, r', z, -, -, -, -, rfl⟩ := DBImpl.moveBalance_ok h herr
      rfl
  rw [DBImpl.totalSurplus, hhist, (DBImpl.subBalance_debits L h herr).1.surplus, ← add_assoc]
  rfl

theorem sub_add_carries {a b : Address} {amt : ℤ} (L : AccountLaws k.bank)
    (hsub : s.subBalance k a amt = .ok s₁) (hadd : s₁.addBalance k b amt = .ok s')
    (herr : s'.err = none) :
    Carries k s s' (s.getTabiAddress a) (s.getTabiAddress b) amt ∧ s'.view.evm = s.view.evm := by
  rw [DBImpl.addBalance_eq_subBalance] at hadd
  obtain ⟨herr₁, -, hevm⟩ := DBImpl.subBalance_frame hadd herr
  obtain ⟨-, hcoinbase, hevm₁⟩ := DBImpl.subBalance_frame hsub herr₁
  have hbacking := DBImpl.getTabiAddress_congr hcoinbase fun a => congrFun hevm₁ _
  refine ⟨⟨funext fun x => ?_, ?_⟩, hevm.trans hevm₁⟩
  · rw [(DBImpl.subBalance_debits L hadd herr).1.shown,
      (DBImpl.subBalance_debits L hsub herr₁).1.shown, hbacking, moved]
    split <;> split <;> ring
  · rw [subBalance_totalSurplus L hadd herr, subBalance_totalSurplus L hsub herr₁,
      add_neg_cancel_right]

theorem transfer_carries {a b : Address} {amt : ℤ} (L : AccountLaws k.bank)
    (h : transfer k s a b amt = .ok s') (herr : s'.err = none) :
    Carries k s s' (s.getTabiAddress a) (s.getTabiAddress b) amt ∧ s'.view.evm = s.view.evm := by
  unfold transfer at h
  split at h
  · obtain ⟨s₁, hsub, h⟩ := bind_eq_ok.mp h
    obtain ⟨s₂, hadd, h⟩ := bind_eq_ok.mp h
    cases h
    obtain ⟨hcarries, hevm⟩ := sub_add_carries L hsub hadd herr
    exact ⟨⟨hcarries.shown, hcarries.surplus⟩, hevm⟩
  · obtain ⟨s₁, hsub, hadd⟩ := bind_eq_ok.mp h
    exact sub_add_carries L hsub hadd herr

structure SendLaws (k : StateDB.Keepers β γ) : Prop where
  sendCoinsAndWei : ∀ {v a b atabi wei r}, k.bank.sendCoinsAndWei v a b atabi wei = .ok r →
    shown k.bank (Writes.ofBank r.1 • v) =
      moved (shown k.bank v) a b (atabi * atabiToWeiMultiplier + wei)
  newAccount : ∀ {v : Stores β γ} {a}, k.account.hasAccount v.acc a = false →
    shown k.bank ((⟨1, k.account.setNewAccount v.acc a, 1⟩ : Writes β γ) • v) = shown k.bank v

structure RunsOn (k : StateDB.Keepers β γ) (decode : Bytes → Option AccAddress)
    (K : Keepers (DBImpl β γ)) : Prop where
  accAddressFromBech32 : ∀ text,
    Reads (K.accAddressFromBech32 text) fun _ a => decode text = some a
  getTabiAddress : ∀ e,
    Reads (K.getTabiAddress e) fun s t => t = StateDB.getTabiAddress s.view e
  getTabiAddressOrDefault : ∀ e,
    Reads (K.getTabiAddressOrDefault e) fun s t => t = StateDB.getTabiAddressOrDefault s.view e
  hasAccount : ∀ a, Reads (K.hasAccount a) fun s b => b = k.account.hasAccount s.view.acc a
  setNewAccount : ∀ {a m w u w'}, K.setNewAccount a m w = .ok (u, w') →
    w'.store = w.store.commit ⟨⟨1, k.account.setNewAccount w.store.view.acc a, 1⟩, []⟩
  sendCoinsAndWei : ∀ {a b atabi wei m w u w'}, K.sendCoinsAndWei a b atabi wei m w = .ok (u, w') →
    ∃ r, k.bank.sendCoinsAndWei w.store.view a b atabi wei = .ok r ∧
      w'.store = w.store.commit ⟨.ofBank r.1, []⟩

variable {decode : Bytes → Option AccAddress} {K : Keepers (DBImpl β γ)} {m : GasMeter}
  {w w' : World (DBImpl β γ)} {a b : AccAddress}

theorem RunsOn.send_carries (R : RunsOn k decode K) (S : SendLaws k) {value : ℤ}
    (hvalue : 0 ≤ value) {parts : ℤ × ℤ} (hparts : splitAtabiWeiAmount value = .ok parts) {u : Unit}
    (h : K.sendCoinsAndWei a b parts.1 parts.2 m w = .ok (u, w')) :
    Carries k w.store w'.store a b value := by
  obtain ⟨r, hr, hstore⟩ := R.sendCoinsAndWei h
  rw [hstore]
  refine ⟨?_, rfl⟩
  rw [DBImpl.view_commit, S.sendCoinsAndWei hr, splitAtabiWeiAmount_value hvalue hparts]

theorem RunsOn.payment_carries (R : RunsOn k decode K) (S : SendLaws k) {value : ℤ}
    (hvalue : 0 ≤ value) {parts : ℤ × ℤ}
    (h : handlePaymentUtabiWei K a b value m w = .ok (parts, w')) :
    splitAtabiWeiAmount value = .ok parts ∧ Carries k w.store w'.store a b value := by
  unfold handlePaymentUtabiWei at h
  obtain ⟨⟨atabi, wei⟩, w₁, hsplit, hpay⟩ := steps_iff.mp h
  obtain ⟨hparts, rfl⟩ := ofOutcome_eq_ok.mp hsplit
  obtain ⟨u, w₂, hsend, hret⟩ := steps_iff.mp hpay
  cases hret
  exact ⟨hparts, R.send_carries S hvalue hparts hsend⟩

theorem RunsOn.account_carries (R : RunsOn k decode K) (S : SendLaws k) {packed p : Packed}
    (h : (do
      if !(← K.hasAccount a) then K.setNewAccount a
      return packed : GasM (DBImpl β γ) Packed) m w = .ok (p, w')) (δ : ℤ) :
    Carries k w.store w'.store a a δ := by
  obtain ⟨found, w₁, hfound, h⟩ := steps_iff.mp h
  obtain ⟨hread, hstore⟩ := R.hasAccount _ hfound
  cases found with
  | true =>
    cases h
    rw [hstore]
    exact .of_same rfl rfl a δ
  | false =>
    obtain ⟨u, w₂, hset, h⟩ := steps_iff.mp h
    cases h
    rw [R.setNewAccount hset, hstore]
    refine .of_same ?_ ?_ a δ
    · rw [DBImpl.view_commit]
      exact S.newAccount hread.symm
    · rfl

def databaseKeepers (k : StateDB.Keepers β γ) (decode : Bytes → Option AccAddress) :
    Keepers (DBImpl β γ) :=
  { (default : Keepers (DBImpl β γ)) with
    priorityNormalizer := Dec.unit
    pack := fun _ _ => .ok [1]
    accAddressFromBech32 := fun text _ w =>
      match decode text with
      | some a => .ok (a, w)
      | none => .error (.error (Bytes.ofString "decoding bech32 failed"))
    getTabiAddress := fun e _ w => .ok (StateDB.getTabiAddress w.store.view e, w)
    getTabiAddressOrDefault := fun e _ w =>
      .ok (StateDB.getTabiAddressOrDefault w.store.view e, w)
    hasAccount := fun a _ w => .ok (k.account.hasAccount w.store.view.acc a, w)
    setNewAccount := fun a _ w =>
      let created := w.store.commit ⟨⟨1, k.account.setNewAccount w.store.view.acc a, 1⟩, []⟩
      .ok ((), ⟨w.consumed, created, w.events⟩)
    sendCoinsAndWei := fun a b atabi wei _ w =>
      match k.bank.sendCoinsAndWei w.store.view a b atabi wei with
      | .error e => .error (.error (Bytes.ofString e))
      | .ok r => .ok ((), ⟨w.consumed, w.store.commit ⟨.ofBank r.1, []⟩, w.events ++ r.2⟩) }

theorem runsOn_databaseKeepers (k : StateDB.Keepers β γ) (decode : Bytes → Option AccAddress) :
    RunsOn k decode (databaseKeepers k decode) where
  accAddressFromBech32 := by
    intro text m w a w' h
    cases hdecode : decode text with
    | none => simp [databaseKeepers, hdecode] at h
    | some b =>
      simp only [databaseKeepers, hdecode] at h
      cases h
      exact ⟨rfl, rfl⟩
  getTabiAddress e m w t w' h := by
    cases h
    exact ⟨rfl, rfl⟩
  getTabiAddressOrDefault e m w t w' h := by
    cases h
    exact ⟨rfl, rfl⟩
  hasAccount a m w b w' h := by
    cases h
    exact ⟨rfl, rfl⟩
  setNewAccount h := by
    cases h
    rfl
  sendCoinsAndWei := by
    intro a b atabi wei m w u w' h
    cases hsend : k.bank.sendCoinsAndWei w.store.view a b atabi wei with
    | error e => simp [databaseKeepers, hsend] at h
    | ok r =>
      simp only [databaseKeepers, hsend] at h
      cases h
      exact ⟨r, rfl, rfl⟩

theorem sendNative_ok {σ : Type} {K : Keepers σ} {w w' : World σ} {c : CallInfo} {text : Bytes}
    {p : Packed} (h : Bank.sendNative K c [.string text] m w = .ok (p, w')) :
    ∃ value sender receiver own parts w₁ w₂ w₃ w₄ w₅, c.value = some value ∧
      K.getTabiAddress c.caller m w = .ok (some sender, w₁) ∧
      K.accAddressFromBech32 text m w₁ = .ok (receiver, w₂) ∧
      K.getTabiAddressOrDefault Bank.address m w₂ = .ok (own, w₃) ∧
      handlePaymentUtabiWei K own sender value m w₃ = .ok (parts, w₄) ∧
      K.sendCoinsAndWei sender receiver parts.1 parts.2 m w₄ = .ok ((), w₅) ∧
      (do
        if !(← K.hasAccount receiver) then K.setNewAccount receiver
        return K.pack "sendNative" [.bool true] : GasM σ Packed) m w₅ = .ok (p, w') := by
  unfold Bank.sendNative at h
  obtain ⟨-, h⟩ := guard_eq_ok.mp h
  obtain ⟨-, h⟩ := guard_eq_ok.mp h
  obtain ⟨_, w₀, hlen, h⟩ := steps_iff.mp h
  cases validateArgsLength_eq_ok hlen
  cases hvalue : c.value.filter (· ≠ 0) with
  | none =>
    rw [hvalue] at h
    cases h
  | some value =>
    rw [hvalue] at h
    obtain ⟨assoc, w₁, hassoc, h⟩ := steps_iff.mp h
    cases assoc with
    | none => cases h
    | some sender =>
      obtain ⟨arg, w₂, harg, h⟩ := steps_iff.mp h
      cases harg
      cases htext : (Value.string text).string?.filter (· ≠ []) with
      | none =>
        rw [htext] at h
        cases h
      | some text' =>
        rw [htext] at h
        cases (Option.filter_eq_some_iff.mp htext).1
        obtain ⟨receiver, w₂, hreceiver, h⟩ := steps_iff.mp h
        obtain ⟨own, w₃, hown, h⟩ := steps_iff.mp h
        obtain ⟨parts, w₄, hpayment, h⟩ := steps_iff.mp h
        obtain ⟨u, w₅, hsend, h⟩ := steps_iff.mp h
        exact ⟨value, sender, receiver, own, parts, w₁, w₂, w₃, w₄, w₅,
          (Option.filter_eq_some_iff.mp hvalue).1, hassoc, hreceiver, hown, hpayment,
          hsend, h⟩

theorem sendNative_passes (R : RunsOn k decode K) (S : SendLaws k) {c : CallInfo} {value : ℕ}
    (hvalue : c.value = some (value : ℤ)) {text : Bytes} {receiver : AccAddress}
    (hreceiver : decode text = some receiver) {p : Packed}
    (h : Bank.sendNative K c [.string text] m w = .ok (p, w')) :
    Carries k w.store w'.store (getTabiAddressOrDefault w.store.view Bank.address) receiver
      value := by
  obtain ⟨value', sender, receiver', own, parts, w₁, w₂, w₃, w₄, w₅, hvalue', hsender, hdecode,
    hown, hpayment, hsend, hrest⟩ := sendNative_ok h
  cases hvalue.symm.trans hvalue'
  obtain ⟨hdecode, hstore₂⟩ := R.accAddressFromBech32 _ hdecode
  cases hreceiver.symm.trans hdecode
  -- nothing is written before the refund
  have hstore₁ := (R.getTabiAddress _ hsender).2
  obtain ⟨hown, hstore₃⟩ := R.getTabiAddressOrDefault _ hown
  have hstore : w₃.store = w.store := hstore₃.trans (hstore₂.trans hstore₁)
  rw [hstore₂, hstore₁] at hown
  have hnonneg : 0 ≤ (value : ℤ) := Int.natCast_nonneg value
  obtain ⟨hparts, hrefund⟩ := R.payment_carries S hnonneg hpayment
  rw [hstore, hown] at hrefund
  exact (hrefund.trans (R.send_carries S hnonneg hparts hsend)).trans
    (R.account_carries S hrest value)

/-- **A native send is exact to the wei.** The EVM's transfer to the precompile recorded no error,
and the call of `sendNative` succeeded. Together they took the value from the account behind the
caller and gave it to the receiver: all other balances are what they were, that of the precompile
among them, and so are all of them if the two are one account. -/
theorem sendNative_exact (L : AccountLaws k.bank) (S : SendLaws k) (R : RunsOn k decode K)
    {c : CallInfo} {value : ℕ} (hvalue : c.value = some (value : ℤ))
    (hcoinbase : s.coinbaseEvmAddress ≠ Bank.address)
    (hpaid : transfer k s c.caller Bank.address value = .ok s₁) (herr : s₁.err = none)
    {unpack : Bytes → Except Bytes (Bank.Method × List Value)} {input text : Bytes}
    (hunpack : unpack input = .ok (.sendNative, [.string text])) {receiver : AccAddress}
    (hreceiver : decode text = some receiver) {adjust : UInt64 → UInt64} {suppliedGas : UInt64}
    {events : List Event} {reply : Reply} {w : World (DBImpl β γ)}
    (hrun : runAndCalculateGas K (Custom.executor K .bank unpack) adjust input suppliedGas c s₁
      events = .ok (reply, some w)) (hok : reply.err = none) :
    (∀ x, shown k.bank w.store.view x = shown k.bank s.view x -
      (if x = s.getTabiAddress c.caller then (value : ℤ) else 0) +
        if x = receiver then (value : ℤ) else 0) ∧
      w.store.totalSurplus = s.totalSurplus := by
  obtain ⟨htransfer, hevm⟩ := transfer_carries L hpaid herr
  obtain ⟨method, args, limit, w', hprepare, -, hexec, hw⟩ := runAndCalculateGas_ok K hrun hok
  cases hw
  -- the method is the one that was called for
  unfold prepare at hprepare
  split at hprepare
  · cases hprepare
  cases hunpack.symm.trans hprepare
  obtain ⟨p, w₁, hsend, hrespond⟩ := steps_iff.mp (recovering_eq_ok.mp hexec)
  cases respond_eq_ok K hrespond
  have hpassed := sendNative_passes R S hvalue hreceiver hsend
  -- the precompile pays out of the account the EVM paid into
  have hown : s.getTabiAddress Bank.address = getTabiAddressOrDefault s₁.view Bank.address := by
    rw [DBImpl.getTabiAddress, if_neg hcoinbase]
    unfold getTabiAddressOrDefault StateDB.getTabiAddress
    rw [hevm]
  rw [hown] at htransfer
  have hcarries := htransfer.trans hpassed
  exact ⟨fun x => congrFun hcarries.shown x, hcarries.surplus⟩

def ledgerSend (accts : List AccAddress) (v : Stores AccAddress ℤ) (a b : AccAddress)
    (atabi wei : ℤ) : StateDB.BankResult AccAddress ℤ :=
  match StateDB.ledgerSub accts 1 v a (atabi * atabiToWeiMultiplier + wei) with
  | .error e => .error e
  | .ok r =>
    match StateDB.ledgerAdd accts 1 (Writes.ofBank r.1 • v) b
      (atabi * atabiToWeiMultiplier + wei) with
    | .error e => .error e
    | .ok r' => .ok (r'.1 * r.1, [])

def sendingKeepers (accts : List AccAddress) : StateDB.Keepers AccAddress ℤ :=
  { StateDB.ledgerKeepers accts with
    bank := { StateDB.ledgerBank accts with sendCoinsAndWei := ledgerSend accts } }

theorem sendingKeepers_accounts (accts : List AccAddress) :
    AccountLaws (sendingKeepers accts).bank :=
  let L := StateDB.ledgerAccounts accts
  ⟨L.addCoins, L.addWei, L.subUnlockedCoins, L.subWei, L.addWei_range, L.subWei_range,
    L.evm_irrelevant⟩

theorem sendingKeepers_laws (accts : List AccAddress) : SendLaws (sendingKeepers accts) where
  sendCoinsAndWei := by
    intro v a b atabi wei r h
    replace h : ledgerSend accts v a b atabi wei = .ok r := h
    unfold ledgerSend at h
    split at h
    · cases h
    · rename_i r₁ hsub
      split at h
      · cases h
      · rename_i r₂ hadd
        cases h
        have hshown : shown (sendingKeepers accts).bank = shown (StateDB.ledgerBank accts) := rfl
        have hboth : (Writes.ofBank (r₂.1 * r₁.1) : Writes AccAddress ℤ) =
            Writes.ofBank r₂.1 * Writes.ofBank r₁.1 :=
          Writes.ext (one_mul 1).symm (one_mul 1).symm rfl
        rw [hshown, hboth, mul_smul]
        funext x
        rw [StateDB.ledgerAdd_shifts accts 1 _ _ _ _ hadd x,
          StateDB.ledgerSub_shifts accts 1 _ _ _ _ hsub x, moved]
        split <;> split <;> ring
  newAccount _ := rfl

def aliceAssociated : Stores AccAddress ℤ where
  evm key := if key = StateDB.evmAddressToTabiAddressKey StateDB.alice then some [7] else none
  acc _ := none
  bank a := if a = [7] then some 10000000000000 else none

def aliceAndBob : StateDB.Keepers AccAddress ℤ :=
  sendingKeepers [[7], StateDB.bob.bytes, Bank.address.bytes]

def aliceReady : DBImpl AccAddress ℤ :=
  DBImpl.newDBImpl aliceAndBob aliceAssociated ⟨1, []⟩ 0 false false

def aliceCall : CallInfo :=
  ⟨StateDB.alice, StateDB.alice, some 1500000000001, false, false, true, 1⟩

def sendToBob (s : DBImpl AccAddress ℤ) :
    Outcome (Reply × Option (World (DBImpl AccAddress ℤ))) :=
  runAndCalculateGas (databaseKeepers aliceAndBob some)
    (Custom.executor (databaseKeepers aliceAndBob some) .bank fun _ =>
      .ok (.sendNative, [.string StateDB.bob.bytes]))
    id [1, 2, 3, 4] 100 aliceCall s []

theorem sendNative_exact_alice : ∃ s₁ reply w,
    transfer aliceAndBob aliceReady aliceCall.caller Bank.address (1500000000001 : ℕ) = .ok s₁ ∧
      sendToBob s₁ = .ok (reply, some w) ∧ reply.err = none ∧
      shown aliceAndBob.bank w.store.view [7] = 8499999999999 ∧
      shown aliceAndBob.bank w.store.view StateDB.bob.bytes = 1500000000001 ∧
      shown aliceAndBob.bank w.store.view Bank.address.bytes = 0 := by
  obtain ⟨s₁, reply, w, hpaid, herr, hrun, hok⟩ : ∃ s₁ reply w,
      transfer aliceAndBob aliceReady aliceCall.caller Bank.address (1500000000001 : ℕ) =
          .ok s₁ ∧
        s₁.err = none ∧ sendToBob s₁ = .ok (reply, some w) ∧ reply.err = none :=
    ⟨_, _, _, rfl, rfl, rfl, rfl⟩
  have hcoinbase : aliceReady.coinbaseEvmAddress ≠ Bank.address := by decide
  have hshown := (sendNative_exact (k := aliceAndBob) (sendingKeepers_accounts _)
    (sendingKeepers_laws _) (runsOn_databaseKeepers aliceAndBob some) (c := aliceCall) rfl
    hcoinbase hpaid herr rfl rfl hrun hok).1
  refine ⟨s₁, reply, w, hpaid, hrun, hok, ?_, ?_, ?_⟩
  · rw [hshown]
    decide +kernel
  · rw [hshown]
    decide +kernel
  · rw [hshown]
    decide +kernel

end Tabi.Precompile
