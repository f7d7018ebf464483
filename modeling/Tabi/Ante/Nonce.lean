import Tabi.Ante.Sender
import Tabi.Ante.Steps
import Tabi.Association.Bank

/-!
# Ante — nonces are used up one by one

A sequence of deliveries, with anything that does not lower a nonce in between.
-/

namespace Tabi.Ante

open Support StateDB Fallible

variable {β γ : Type}

structure Tx (β γ : Type) where
  env : Env β γ
  msg : MsgEVMTransaction
  meanwhile : Stores β γ → Stores β γ := id

def Tx.sender (tx : Tx β γ) : Option Address :=
  match preprocess tx.env.K.crypto tx.env.block tx.msg with
  | .ok msg => msg.sender
  | .error _ => none

def Tx.nonce (tx : Tx β γ) : Option UInt64 :=
  match asTransaction tx.msg with
  | .ok etx => some etx.nonce
  | .error _ => none

def Tx.Genuine (tx : Tx β γ) : Prop :=
  ∀ derived, tx.msg.derived = some derived → derived.pubKey.isSome →
    ∃ block txData, tx.msg.data = .ok txData ∧
      derive tx.env.K.crypto block txData = .ok derived

structure Entry (β γ : Type) where
  tx : Tx β γ
  before : Stores β γ
  after : Stores β γ
  executed : Bool

def history (execute : Execution β γ) : Stores β γ → List (Tx β γ) → List (Entry β γ)
  | _, [] => []
  | v, tx :: txs =>
    ⟨tx, v, (deliverTx execute tx.env v tx.msg).stores,
      (deliverTx execute tx.env v tx.msg).executed⟩ ::
    history execute (tx.meanwhile (deliverTx execute tx.env v tx.msg).stores) txs

structure Raises (execute : Execution β γ) (signers : Set Address) : Prop where
  sender : ∀ env v msg derived v', msg.derived = some derived → execute env v msg = some v' →
    getNonce v derived.senderEVMAddr < 2 ^ 64 - 1 →
    getNonce v' derived.senderEVMAddr = getNonce v derived.senderEVMAddr + 1
  others : ∀ env v msg derived v', msg.derived = some derived → execute env v msg = some v' →
    ∀ a ∈ signers, a ≠ derived.senderEVMAddr → getNonce v a ≤ getNonce v' a

section Messages

variable {C : Association.Crypto} {block : Block} {msg msg' : MsgEVMTransaction}

theorem preprocess_data (h : preprocess C block msg = .ok msg') : msg'.data = msg.data := by
  unfold preprocess at h
  split at h
  · obtain ⟨_, -, h⟩ := bind_eq_ok.mp h
    cases h
    rfl
  · obtain ⟨_, -, h⟩ := bind_eq_ok.mp h
    obtain ⟨_, -, h⟩ := bind_eq_ok.mp h
    cases h
    rfl

theorem asTransaction_congr (h : msg'.data = msg.data) :
    asTransaction msg' = asTransaction msg := by
  unfold asTransaction
  rw [h]

theorem derive_isAssociate {txData : EthTx.TxData} {derived : Derived}
    (h : derive C block txData = .ok derived) (hassoc : derived.isAssociate = true) :
    ∃ t, txData = .associateTx t := by
  cases txData with
  | associateTx t => exact ⟨t, rfl⟩
  | legacyTx t | accessListTx t | dynamicFeeTx t | blobTx t =>
    obtain ⟨data, -, h⟩ := bind_eq_ok.mp h
    obtain ⟨_, -, h⟩ := bind_eq_ok.mp h
    obtain ⟨⟨_, _, _⟩, -, h⟩ := bind_eq_ok.mp h
    cases h
    cases hassoc

theorem isAssociateTx_of_transaction {etx : Geth.Transaction} (h : asTransaction msg = .ok etx) :
    isAssociateTx msg = false := by
  unfold asTransaction at h
  unfold isAssociateTx
  split
  · rename_i t ht
    rw [ht] at h
    cases h
  · rfl

end Messages

variable {execute : Execution β γ} {signers : Set Address} {tx : Tx β γ} {v : Stores β γ}

theorem Tx.Genuine.isAssociateTx (hgenuine : tx.Genuine) {msg' : MsgEVMTransaction}
    {derived : Derived} (hpre : preprocess tx.env.K.crypto tx.env.block tx.msg = .ok msg')
    (hderived : msg'.derived = some derived) (hassoc : derived.isAssociate = true) :
    isAssociateTx msg' = true := by
  obtain ⟨block, txData, hdata, hderive⟩ : ∃ block txData, tx.msg.data = .ok txData ∧
      derive tx.env.K.crypto block txData = .ok derived := by
    unfold preprocess at hpre
    split at hpre
    · -- the message had been processed before
      rename_i d hd
      obtain ⟨_, hkey, hpre⟩ := bind_eq_ok.mp hpre
      cases hpre
      rw [hd] at hderived
      cases hderived
      exact hgenuine derived hd (require_eq_ok.mp hkey)
    · obtain ⟨txData, hdata, hpre⟩ := bind_eq_ok.mp hpre
      obtain ⟨d, hd, hpre⟩ := bind_eq_ok.mp hpre
      cases hpre
      cases hderived
      exact ⟨tx.env.block, txData, mapError_eq_ok.mp hdata, hd⟩
  obtain ⟨t, rfl⟩ := derive_isAssociate hderive hassoc
  unfold Ante.isAssociateTx
  rw [preprocess_data hpre, hdata]

structure Uses (signers : Set Address) (tx : Tx β γ) (v v' : Stores β γ) (s : Address)
    (n : UInt64) : Prop where
  sender : tx.sender = some s
  nonce : tx.nonce = some n
  before : getNonce v s = n.toNat
  after : getNonce v' s = n.toNat + 1
  others : ∀ a ∈ signers, a ≠ s → getNonce v a ≤ getNonce v' a

theorem toNat_succ {n : UInt64} (h : n.toNat < 2 ^ 64 - 1) : (n + 1).toNat = n.toNat + 1 := by
  rw [UInt64.toNat_add]
  exact Nat.mod_eq_of_lt (by simpa using Nat.add_lt_of_lt_sub h)

theorem runCallback_nonce {s : Address} {n : UInt64} (hn : n.toNat < 2 ^ 64 - 1)
    (h : getNonce v s = n.toNat) :
    getNonce (runCallback (some ⟨s, n⟩) v) s = n.toNat + 1 ∧
      ∀ a, a ≠ s → getNonce (runCallback (some ⟨s, n⟩) v) a = getNonce v a := by
  have hrun : runCallback (some ⟨s, n⟩) v = (setNonce s (n + 1) : Effect β γ).writes • v :=
    if_pos h
  rw [hrun]
  exact ⟨(getNonce_setNonce v s _).trans (toNat_succ hn),
    fun a ha => getNonce_setNonce_of_ne v ha _⟩

theorem Entered.uses_of_passed (hexec : Raises execute signers) {msg' msg'' : MsgEVMTransaction}
    {derived : Derived} {v₁ : Stores β γ} {etx : Geth.Transaction}
    (hent : Entered tx.env v tx.msg msg' derived v₁ etx)
    (hsender : tx.sender = some derived.senderEVMAddr) (htx : tx.nonce = some etx.nonce)
    (hbound : etx.nonce.toNat < 2 ^ 64 - 1) {ctx : Context β γ}
    (h : evmAnteHandler tx.env ⟨v, none⟩ tx.msg = .passed ctx msg'') :
    Uses signers tx v (deliverTx execute tx.env v tx.msg).stores derived.senderEVMAddr
      etx.nonce := by
  obtain ⟨rfl, hnonces, -, hn, hcallback⟩ := hent.of_passed h
  rw [deliverTx, h]
  dsimp only
  rw [hcallback, runMsg, isAssociateTx_of_transaction hent.transaction]
  cases hrun : execute tx.env ctx.stores msg'' with
  | none =>
    -- rolled back: the callback raises the nonce
    obtain ⟨hafter, hothers⟩ :=
      runCallback_nonce hbound ((hnonces derived.senderEVMAddr).trans hn)
    exact ⟨hsender, htx, hn, hafter, fun a _ ha => ((hothers a ha).trans (hnonces a)).ge⟩
  | some v' =>
    have hafter := hexec.sender _ _ _ _ _ hent.carried hrun
    rw [hnonces, hn] at hafter
    have hafter := hafter hbound
    -- the nonce is not the one the callback remembers any more
    have hkept : runCallback (some ⟨derived.senderEVMAddr, etx.nonce⟩) v' = v' :=
      if_neg fun h => Nat.succ_ne_self _ (hafter.symm.trans h)
    refine ⟨hsender, htx, hn, ?_, fun a hmem ha => ?_⟩
    · exact (congrArg (getNonce · derived.senderEVMAddr) hkept).trans hafter
    · rw [← hnonces a]
      exact (hexec.others _ _ _ _ _ hent.carried hrun a hmem ha).trans_eq
        (congrArg (getNonce · a) hkept).symm

theorem deliverTx_uses (hexec : Raises execute signers) (hgenuine : tx.Genuine)
    (hnonce : ∀ n, tx.nonce = some n → n.toNat < 2 ^ 64 - 1) (v : Stores β γ) :
    ((deliverTx execute tx.env v tx.msg).executed = false ∧
        ∀ a, getNonce (deliverTx execute tx.env v tx.msg).stores a = getNonce v a) ∨
      ∃ s n, Uses signers tx v (deliverTx execute tx.env v tx.msg).stores s n := by
  rcases evmAnteHandler_cases tx.env v tx.msg with ⟨p, h⟩ | ⟨e, h, -⟩ |
    ⟨msg', derived, v₁, hpre, hderived, hassoc, h⟩ | ⟨msg', derived, v₁, etx, hent⟩
  · rw [deliverTx, h]
    exact .inl ⟨rfl, fun _ => rfl⟩
  · rw [deliverTx, h]
    exact .inl ⟨rfl, fun _ => rfl⟩
  · have hmsg := hgenuine.isAssociateTx hpre hderived (Association.evmPreprocess_cases hassoc).1
    rw [deliverTx, h]
    dsimp only
    rw [runMsg, if_pos hmsg]
    exact .inl ⟨rfl, evmPreprocess_nonce hassoc⟩
  · have hsender : tx.sender = some derived.senderEVMAddr := by
      rw [Tx.sender, hent.preprocess]
      exact congrArg (Option.map Derived.senderEVMAddr) hent.carried
    have htx : tx.nonce = some etx.nonce := by
      rw [Tx.nonce, ← asTransaction_congr (preprocess_data hent.preprocess), hent.transaction]
    have hbound := hnonce _ htx
    cases h : evmAnteHandler tx.env ⟨v, none⟩ tx.msg with
    | panicked p =>
      rw [deliverTx, h]
      exact .inl ⟨rfl, fun _ => rfl⟩
    | failed ctx e =>
      have hcallback := (hent.callback_failed h).trans hent.callback
      rw [deliverTx, h]
      dsimp only
      by_cases hn : getNonce v derived.senderEVMAddr = etx.nonce.toNat
      · rw [hcallback, if_pos hn]
        obtain ⟨hafter, hothers⟩ := runCallback_nonce hbound hn
        exact .inr ⟨_, _, hsender, htx, hn, hafter, fun a _ ha => (hothers a ha).ge⟩
      · rw [hcallback, if_neg hn]
        exact .inl ⟨rfl, fun _ => rfl⟩
    | passed ctx msg'' =>
      exact .inr ⟨_, _, hent.uses_of_passed hexec hsender htx hbound h⟩

structure Regular (signers : Set Address) (tx : Tx β γ) : Prop where
  genuine : tx.Genuine
  nonce : ∀ n, tx.nonce = some n → n.toNat < 2 ^ 64 - 1
  signer : ∀ s, tx.sender = some s → s ∈ signers
  meanwhile : ∀ v, ∀ a ∈ signers, getNonce v a ≤ getNonce (tx.meanwhile v) a

theorem deliverTx_mono (hexec : Raises execute signers) (htx : Regular signers tx) (v : Stores β γ)
    {a : Address} (ha : a ∈ signers) :
    getNonce v a ≤ getNonce (deliverTx execute tx.env v tx.msg).stores a := by
  rcases deliverTx_uses hexec htx.genuine htx.nonce v with ⟨-, h⟩ | ⟨s, n, h⟩
  · exact (h a).ge
  · by_cases e : a = s
    · rw [e, h.before, h.after]
      omega
    · exact h.others a ha e

theorem history_nonce_ge (hexec : Raises execute signers) {a : Address} (ha : a ∈ signers)
    {txs : List (Tx β γ)} (htxs : ∀ tx ∈ txs, Regular signers tx) :
    ∀ v, ∀ e ∈ history execute v txs, e.executed = true → e.tx.sender = some a →
      ∃ n, e.tx.nonce = some n ∧ getNonce v a ≤ n.toNat := by
  induction txs with
  | nil => exact fun _ _ h => nomatch h
  | cons tx txs ih =>
    intro v e he hexecuted hsender
    have htx := htxs tx List.mem_cons_self
    rcases List.mem_cons.mp he with rfl | he
    · rcases deliverTx_uses hexec htx.genuine htx.nonce v with ⟨h, -⟩ | ⟨s, n, h⟩
      · rw [h] at hexecuted
        cases hexecuted
      · have hs : s = a := Option.some.inj (h.sender.symm.trans hsender)
        exact ⟨n, h.nonce, hs ▸ h.before.le⟩
    · obtain ⟨n, hn, hle⟩ := ih (fun tx' h => htxs tx' (List.mem_cons_of_mem tx h)) _ e he
        hexecuted hsender
      refine ⟨n, hn, ?_⟩
      exact (deliverTx_mono hexec htx v ha).trans ((htx.meanwhile _ a ha).trans hle)

theorem history_step (hexec : Raises execute signers) {txs : List (Tx β γ)}
    (htxs : ∀ tx ∈ txs, Regular signers tx) :
    ∀ v, ∀ e ∈ history execute v txs,
      (e.executed = false ∧ ∀ a, getNonce e.after a = getNonce e.before a) ∨
        ∃ s n, Uses signers e.tx e.before e.after s n := by
  induction txs with
  | nil => exact fun _ _ h => nomatch h
  | cons tx txs ih =>
    intro v e he
    rcases List.mem_cons.mp he with rfl | he
    · have htx := htxs tx List.mem_cons_self
      exact deliverTx_uses hexec htx.genuine htx.nonce v
    · exact ih (fun tx' h => htxs tx' (List.mem_cons_of_mem tx h)) _ e he

/-- **Nonce discipline.**  In every sequence of deliveries, each transaction leaves the nonce of
its sender or raises it by one, the latter only if it is its own nonce; and no two executed
transactions have the same sender and nonce. -/
theorem nonce_discipline (hexec : Raises execute signers) {txs : List (Tx β γ)}
    (htxs : ∀ tx ∈ txs, Regular signers tx) (v : Stores β γ) :
    (∀ e ∈ history execute v txs, ∀ s, e.tx.sender = some s →
      getNonce e.after s = getNonce e.before s ∨
        getNonce e.after s = getNonce e.before s + 1 ∧
          ∃ n, e.tx.nonce = some n ∧ n.toNat = getNonce e.before s) ∧
    (history execute v txs).Pairwise fun e e' => e.executed = true → e'.executed = true →
      e.tx.sender = e'.tx.sender → e.tx.nonce ≠ e'.tx.nonce := by
  constructor
  · intro e he s hs
    rcases history_step hexec htxs v e he with ⟨-, h⟩ | ⟨s', n, h⟩
    · exact .inl (h s)
    · have hs' : s' = s := Option.some.inj (h.sender.symm.trans hs)
      subst hs'
      exact .inr ⟨by rw [h.after, h.before], n, h.nonce, h.before.symm⟩
  · induction txs generalizing v with
    | nil => exact .nil
    | cons tx txs ih =>
      have htx := htxs tx List.mem_cons_self
      have hrest : ∀ tx' ∈ txs, Regular signers tx' :=
        fun tx' h => htxs tx' (List.mem_cons_of_mem tx h)
      refine .cons (fun e he hexecuted hexecuted' hsender hnonce => ?_) (ih hrest _)
      rcases deliverTx_uses hexec htx.genuine htx.nonce v with ⟨h, -⟩ | ⟨s, n, h⟩
      · rw [h] at hexecuted
        cases hexecuted
      · -- the sender's nonce has passed `n`, and stays there
        have hs : s ∈ signers := htx.signer s h.sender
        obtain ⟨n', hn', hle⟩ := history_nonce_ge hexec hs hrest _ e he hexecuted'
          (hsender.symm.trans h.sender)
        have hsame : n' = n := Option.some.inj (hn'.symm.trans (hnonce.symm.trans h.nonce))
        have hmean := htx.meanwhile (deliverTx execute tx.env v tx.msg).stores s hs
        rw [h.after] at hmean
        rw [hsame] at hle
        omega

def freeChain : Env Association.PurseKey ℤ where
  K := Association.purse
  block := ⟨1, 0, 0⟩
  txIndex := 0
  chainID := 9789
  maxGas := none
  baseFeePerGas := 0
  minimumFeePerGas := 0
  priorityNormalizer := Dec.unit
  intrinsicGas _ := .ok 21000
  statelessChecks _ _ _ := .ok ()
  buyGas _ _ _ := .ok 0
  order := entryOrder

def raiseNonce : Execution Association.PurseKey ℤ := fun _ v msg =>
  msg.derived.map fun derived =>
    (setNonce derived.senderEVMAddr (UInt64.ofNat (getNonce v derived.senderEVMAddr + 1)) :
      Effect Association.PurseKey ℤ).writes • v

theorem raiseNonce_raises (signers : Set Address) : Raises raiseNonce signers := by
  constructor
  · intro env v msg derived v' hmsg h hlt
    rw [raiseNonce, hmsg] at h
    cases h
    rw [getNonce_setNonce, UInt64.toNat_ofNat']
    exact Nat.mod_eq_of_lt (Nat.add_lt_of_lt_sub hlt)
  · intro env v msg derived v' hmsg h a _ ha
    rw [raiseNonce, hmsg] at h
    cases h
    rw [getNonce_setNonce_of_ne v ha]

def freeTransfer : Tx Association.PurseKey ℤ :=
  ⟨freeChain, ⟨.ok (legacyTransfer 28), none⟩, id⟩

theorem nonce_discipline_twice :
    (history raiseNonce Association.noStores [freeTransfer, freeTransfer]).map Entry.executed =
        [true, false] ∧
      (history raiseNonce Association.noStores [freeTransfer, freeTransfer]).Pairwise fun e e' =>
        e.executed = true → e'.executed = true → e.tx.sender = e'.tx.sender →
          e.tx.nonce ≠ e'.tx.nonce := by
  have hregular : Regular Set.univ freeTransfer := by
    refine ⟨nofun, fun n hn => ?_, fun _ _ => Set.mem_univ _, fun _ _ _ => le_rfl⟩
    have hzero : n = 0 := (Option.some.inj hn).symm
    rw [hzero]
    decide
  refine ⟨by decide, (nonce_discipline (raiseNonce_raises Set.univ) ?_ _).2⟩
  intro tx htx
  rcases List.mem_pair.mp htx with rfl | rfl
  · exact hregular
  · exact hregular

end Tabi.Ante
