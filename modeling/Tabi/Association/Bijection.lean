import Tabi.Association.Bank
import Tabi.Association.EntryPoints
import Tabi.StateDB.Effects
import Tabi.StateDB.Stores
import Tabi.Support.Pairing

/-!
# Association — the two tables

The EVM store holds two tables, from EVM addresses to Cosmos addresses and back.
-/

namespace Tabi.Association

open Support StateDB Fallible

variable {β γ : Type}

inductive Identity where
  | publicKey (pub : Bytes) (tabiAddr : AccAddress)
  | evmContract (addr : Address)
  | wasmContract (addr : AccAddress)
  | account (tabiAddr : AccAddress) (evmAddr : Address)

namespace Identity

def evmAddr (C : Crypto) : Identity → Address
  | .publicKey pub _ => FixedBytes.copyOf 20 ((C.keccak256 pub.tail).bytes.drop 12)
  | .evmContract addr => addr
  | .wasmContract addr => FixedBytes.ofBytes 20 addr
  | .account _ evmAddr => evmAddr

def tabiAddr : Identity → AccAddress
  | .publicKey _ tabiAddr => tabiAddr
  | .evmContract addr => addr.bytes
  | .wasmContract addr => addr
  | .account tabiAddr _ => tabiAddr

end Identity

structure Population (C : Crypto) where
  identities : Set Identity
  evmAddr_injOn : identities.InjOn (Identity.evmAddr C)
  tabiAddr_injOn : identities.InjOn Identity.tabiAddr

def Population.Knows {C : Crypto} (P : Population C) (pub : Bytes) : Prop :=
  ∀ evmAddr tabiAddr key, getAddressesFromPubkeyBytes C pub = .ok (evmAddr, tabiAddr, key) →
    .publicKey pub tabiAddr ∈ P.identities

def tableKeys : Set Bytes := {key | key.head? = some 0x01 ∨ key.head? = some 0x02}

inductive Reaches (K : Keepers β γ) (P : Population K.crypto) : Stores β γ → Stores β γ → Prop where
  | refl (v : Stores β γ) : Reaches K P v v
  | trans {v v₁ v' : Stores β γ} : Reaches K P v v₁ → Reaches K P v₁ v' → Reaches K P v v'
  | other (v : Stores β γ) (w : Writes β γ) (hw : w.evm.Within tableKeysᶜ) : Reaches K P v (w • v)
  /-- `EVMPreprocessDecorator`, of a transaction from which a key was recovered. -/
  | evmPreprocess {v v' : Stores β γ} {block : Ante.Block} {txData : EthTx.TxData}
      {derived : Ante.Derived} {pub key : Bytes} {done : Bool}
      (hderive : Ante.derive K.crypto block txData = .ok derived)
      (hpub : getAddressesFromPubkeyBytes K.crypto pub =
        .ok (derived.senderEVMAddr, derived.senderTabiAddr, key))
      (hknows : P.Knows pub) (h : evmPreprocess K v derived = .ok (v', done)) : Reaches K P v v'
  | associateSigner {v v' : Stores β γ} {isTxMsgAssociate : Bool} {signer : AccAddress}
      (hkey : ∀ key pub, K.getPubKey v.acc signer = .ok (some key) →
        K.crypto.parsePubkey key = some pub → .publicKey pub signer ∈ P.identities)
      (h : associateSigner K isTxMsgAssociate v signer = .ok v') : Reaches K P v v'
  | associate {v v' : Stores β γ} {vValue rValue sValue : ℤ} {customMessage : Bytes}
      (hknows : ∀ pub, recoverPubkey K.crypto (K.crypto.keccak256 customMessage) rValue sValue
        (vValue + 27) true = .ok pub → P.Knows pub)
      (h : associate K v vValue rValue sValue customMessage = .ok v') : Reaches K P v v'
  | associatePublicKey {v v' : Stores β γ} {pubKeyBytes : Bytes}
      (hknows : ∀ pub, K.crypto.parsePubkey pubKeyBytes = some pub → P.Knows pub)
      (h : associatePublicKey K v pubKeyBytes = .ok v') : Reaches K P v v'
  | associateContractAddress {v v' : Stores β γ} {isContract : Bool} {addr : AccAddress}
      (haddr : .wasmContract addr ∈ P.identities)
      (h : associateContractAddress K v isContract addr = .ok v') : Reaches K P v v'
  /-- `InitGenesis`, of a file in which every pair is of one identity and no serialized entry is
  in the tables. -/
  | initGenesis {v : Stores β γ} {coinbase : Address} {genState : GenesisState}
      (hcoinbase : .account K.feeCollectorModuleAddress coinbase ∈ P.identities)
      (hpairs : ∀ aa ∈ genState.addressAssociations, ∃ x ∈ P.identities,
        x.tabiAddr = aa.1 ∧ x.evmAddr K.crypto = aa.2)
      (hcodes : ∀ c ∈ genState.codes, .evmContract c.1 ∈ P.identities)
      (hserialized : ∀ e ∈ genState.serialized, e.1 ∉ tableKeys) :
      Reaches K P v (initGenesis K v coinbase genState)
  /-- A transaction on the state database, from `NewDBImpl` to `Finalize`, with any operations in
  any order: code is set for contracts, and each precompile call is itself one of these steps. -/
  | transaction {root : Stores β γ} {ctx : Ctx β γ} {txIndex : UInt64}
      {isTracing simulation : Bool} {ops : List (Op β γ)} {s s' : DBImpl β γ} {order : MapOrder}
      {surplus : ℤ}
      (hcode : ∀ a code, .setCode a code ∈ ops → .evmContract a ∈ P.identities)
      (hnative : ∀ call, .native call ∈ ops → ∀ v, Reaches K P v ((call v).writes • v))
      (hrun : DBImpl.run K.toKeepers ops
        (DBImpl.newDBImpl K.toKeepers root ctx txIndex isTracing simulation) = .ok s)
      (hfin : s.finalize K.toKeepers order = .ok (s', .ok surplus)) :
      Reaches K P (ctx.dirty • root) s'.originalStores

theorem evmKey_mem (a : Address) : evmAddressToTabiAddressKey a ∈ tableKeys := .inl rfl

theorem tabiKey_mem (t : AccAddress) : tabiAddressToEVMAddressKey t ∈ tableKeys := .inr rfl

theorem deleteAddressMapping_evm (v : Stores β γ) (t : AccAddress) (a : Address) :
    ((deleteAddressMapping t a : Effect β γ).writes • v).evm =
      (Patch.delete (tabiAddressToEVMAddressKey t) : Patch Bytes Bytes) •
        ((Patch.delete (evmAddressToTabiAddressKey a) : Patch Bytes Bytes) • v.evm) :=
  mul_smul _ _ _

theorem getTabiAddress_deleteAddressMapping (v : Stores β γ) (t : AccAddress) (a : Address) :
    getTabiAddress ((deleteAddressMapping t a : Effect β γ).writes • v) =
      Function.update (getTabiAddress v) a none := by
  funext b
  rw [getTabiAddress, deleteAddressMapping_evm, Patch.delete_smul_other (evmKey_ne_tabiKey b t)]
  by_cases e : b = a
  · rw [e, Patch.delete_smul_same, Function.update_self]
  · rw [Patch.delete_smul_other (evmKey_injective.ne e), Function.update_of_ne e]
    rfl

theorem getEVMAddress_deleteAddressMapping (v : Stores β γ) (t : AccAddress) (a : Address) :
    getEVMAddress ((deleteAddressMapping t a : Effect β γ).writes • v) =
      Function.update (getEVMAddress v) t none := by
  funext u
  rw [getEVMAddress, deleteAddressMapping_evm]
  by_cases e : u = t
  · rw [e, Patch.delete_smul_same, Function.update_self]
    rfl
  · rw [Patch.delete_smul_other (tabiKey_injective.ne e),
      Patch.delete_smul_other (evmKey_ne_tabiKey a u).symm, Function.update_of_ne e]
    rfl

theorem signerEVMAddress_eq_some {K : Keepers β γ} {v : Stores β γ} {signer : AccAddress}
    {evmAddr : Address} {Q : Identity → Prop} (h : signerEVMAddress K v signer = .ok (some evmAddr))
    (hkey : ∀ key pub, K.getPubKey v.acc signer = .ok (some key) →
      K.crypto.parsePubkey key = some pub → Q (.publicKey pub signer)) :
    ∃ pub, Q (.publicKey pub signer) ∧
      (Identity.publicKey pub signer).evmAddr K.crypto = evmAddr := by
  obtain ⟨key, hread, h⟩ := bind_eq_ok.mp h
  cases key with
  | none => cases h
  | some key =>
    dsimp only at h
    cases hparse : K.crypto.parsePubkey key with
    | none =>
      rw [hparse] at h
      cases h
    | some pub =>
      rw [hparse] at h
      dsimp only at h
      cases hpub : pubkeyToEVMAddress K.crypto pub with
      | error e =>
        rw [hpub] at h
        cases h
      | ok a =>
        rw [hpub] at h
        cases h
        obtain ⟨_, -, hpub⟩ := bind_eq_ok.mp hpub
        cases hpub
        exact ⟨pub, hkey key pub hread hparse, rfl⟩

def Listed {C : Crypto} (P : Population C) (v : Stores β γ) : Prop :=
  ∃ S ⊆ P.identities, Lists (Identity.evmAddr C) Identity.tabiAddr S (getTabiAddress v)
    (getEVMAddress v)

namespace Listed

variable {K : Keepers β γ} {P : Population K.crypto} {v v' : Stores β γ}

theorem of_evm_eq (h : Listed P v) (hevm : v'.evm = v.evm) : Listed P v' := by
  obtain ⟨S, hS, hlists⟩ := h
  refine ⟨S, hS, ?_⟩
  unfold getTabiAddress getEVMAddress at *
  rw [hevm]
  exact hlists

theorem other (h : Listed P v) {w : Writes β γ} (hw : w.evm.Within tableKeysᶜ) :
    Listed P (w • v) := by
  obtain ⟨S, hS, hlists⟩ := h
  have htabi : getTabiAddress (w • v) = getTabiAddress v :=
    funext fun a => hw.smul_apply (fun hmem => hmem (evmKey_mem a)) v.evm
  have hevm : getEVMAddress (w • v) = getEVMAddress v :=
    funext fun t => congrArg (Option.map _)
      (hw.smul_apply (fun hmem => hmem (tabiKey_mem t)) v.evm)
  exact ⟨S, hS, by rw [htabi, hevm]; exact hlists⟩

theorem smul (h : Listed P v) {w : Writes β γ} {bs : List UInt8} (hw : w.evm.Within (heads bs))
    (hbs : 0x01 ∉ bs ∧ 0x02 ∉ bs) : Listed P (w • v) := by
  refine h.other (hw.mono ?_)
  rintro key ⟨b, hb, hkey⟩ (htable | htable)
  · cases hkey.symm.trans htable
    exact hbs.1 hb
  · cases hkey.symm.trans htable
    exact hbs.2 hb

variable {a evmAddr : Address} {pub key : Bytes} {tabiAddr : AccAddress}

theorem mapAddress (h : Listed P v) {x : Identity} (hx : x ∈ P.identities) {t : AccAddress}
    (ht : x.tabiAddr = t) (ha : x.evmAddr K.crypto = a) : Listed P (mapAddress K v t a) := by
  obtain ⟨S, hS, hlists⟩ := h
  refine ⟨insert x S, Set.insert_subset hx hS, ?_⟩
  rw [getTabiAddress_mapAddress, getEVMAddress_mapAddress, ← ht, ← ha]
  exact hlists.insert P.evmAddr_injOn P.tabiAddr_injOn hS hx

theorem deleteAddressMapping (h : Listed P v) {t : AccAddress} (ha : getTabiAddress v a = some t) :
    Listed P ((deleteAddressMapping t a : Effect β γ).writes • v) := by
  obtain ⟨S, hS, hlists⟩ := h
  obtain ⟨x, hx, rfl, rfl⟩ := (hlists.fst a t).mp ha
  refine ⟨S \ {x}, Set.sdiff_subset.trans hS, ?_⟩
  rw [getTabiAddress_deleteAddressMapping, getEVMAddress_deleteAddressMapping]
  exact hlists.erase P.evmAddr_injOn P.tabiAddr_injOn hS hx

theorem setCode (h : Listed P v) (ha : .evmContract a ∈ P.identities) (code : Bytes) :
    Listed P ((setCode K.toKeepers v a code).writes • v) := by
  unfold StateDB.setCode
  dsimp only
  have hcode : Listed P ((Writes.ofEvm (Patch.set (codeHashKey a) (K.keccak code).bytes *
      (Patch.set (codeSizeKey a) (beBytes 8 code.length) * Patch.set (codeKey a) code)) :
        Writes β γ) • v) := h.smul (codeWrites_within a code _) (by decide)
  split
  · exact hcode
  · rename_i hnone
    rw [mul_smul, getTabiAddressOrDefault, hnone]
    exact hcode.mapAddress ha rfl rfl

theorem clearAccountState (h : Listed P v) (a : Address) :
    Listed P ((clearAccountState v a).writes • v) :=
  h.smul (clearAccountState_within v a) (by decide)

theorem setState (h : Listed P v) (a : Address) (key val : Hash) :
    Listed P ((setState a key val : Effect β γ).writes • v) :=
  h.smul (setState_within a key val) (by decide)

theorem setNonce (h : Listed P v) (a : Address) (n : UInt64) :
    Listed P ((setNonce a n : Effect β γ).writes • v) :=
  h.smul (setNonce_within a n) (by decide)

theorem mapKey (h : Listed P v) (hknows : P.Knows pub)
    (hpub : getAddressesFromPubkeyBytes K.crypto pub = .ok (evmAddr, tabiAddr, key)) :
    Listed P (Association.mapAddress K v tabiAddr evmAddr) := by
  have hmem := hknows _ _ _ hpub
  have hevm : evmAddr = (Identity.publicKey pub tabiAddr).evmAddr K.crypto := by
    obtain ⟨a, ha, hrest⟩ := bind_eq_ok.mp hpub
    obtain ⟨_, -, hrest⟩ := bind_eq_ok.mp hrest
    obtain ⟨_, -, ha⟩ := bind_eq_ok.mp ha
    cases ha
    cases hrest
    rfl
  exact h.mapAddress hmem rfl hevm.symm

theorem associateAddresses (h : Listed P v) {pubkey : Bytes} (hknows : P.Knows pub)
    (hpub : getAddressesFromPubkeyBytes K.crypto pub = .ok (evmAddr, tabiAddr, key))
    (hassoc : associateAddresses K v tabiAddr evmAddr pubkey = .ok v') : Listed P v' :=
  (h.mapKey hknows hpub).of_evm_eq (associateAddresses_evm hassoc)

theorem evmPreprocess (h : Listed P v) {derived : Ante.Derived} {done : Bool} (hknows : P.Knows pub)
    (hpub : getAddressesFromPubkeyBytes K.crypto pub = .ok (derived.senderEVMAddr,
      derived.senderTabiAddr, key)) (hpre : evmPreprocess K v derived = .ok (v', done)) :
    Listed P v' := by
  rcases (evmPreprocess_cases hpre).2 with rfl | hassoc
  · exact h
  · exact h.associateAddresses hknows hpub hassoc

theorem associateSigner (h : Listed P v) {isTxMsgAssociate : Bool} {signer : AccAddress}
    (hkey : ∀ key pub, K.getPubKey v.acc signer = .ok (some key) →
      K.crypto.parsePubkey key = some pub → .publicKey pub signer ∈ P.identities)
    (hsigner : associateSigner K isTxMsgAssociate v signer = .ok v') : Listed P v' := by
  unfold Association.associateSigner at hsigner
  split at hsigner
  · cases hsigner
    exact h
  · obtain ⟨evmAddr, hread, hsigner⟩ := bind_eq_ok.mp hsigner
    cases evmAddr with
    | none =>
      cases hsigner
      exact h
    | some evmAddr =>
      obtain ⟨v₁, h₁, hsigner⟩ := bind_eq_ok.mp hsigner
      obtain ⟨_, -, hsigner⟩ := bind_eq_ok.mp hsigner
      cases hsigner
      obtain ⟨pub, hmem, rfl⟩ := signerEVMAddress_eq_some (ofOutcome_eq_ok.mp hread) hkey
      exact (h.mapAddress hmem rfl rfl).of_evm_eq (migrateBalance_evm h₁)

theorem precompileAssociate (h : Listed P v) {pubkey : Bytes} (hknows : P.Knows pub)
    (hpub : getAddressesFromPubkeyBytes K.crypto pub = .ok (evmAddr, tabiAddr, key))
    (hpre : precompileAssociate K v evmAddr tabiAddr pubkey = .ok v') : Listed P v' := by
  obtain ⟨_, -, hassoc⟩ := bind_eq_ok.mp hpre
  exact h.associateAddresses hknows hpub hassoc

theorem associateContractAddress (h : Listed P v) {isContract : Bool} {addr : AccAddress}
    (haddr : .wasmContract addr ∈ P.identities)
    (hassoc : associateContractAddress K v isContract addr = .ok v') : Listed P v' := by
  obtain ⟨_, -, hassoc⟩ := bind_eq_ok.mp hassoc
  obtain ⟨_, -, hassoc⟩ := bind_eq_ok.mp hassoc
  cases hassoc
  exact h.mapAddress haddr rfl rfl

theorem initGenesis (h : Listed P v) {coinbase : Address} {genState : GenesisState}
    (hcoinbase : .account K.feeCollectorModuleAddress coinbase ∈ P.identities)
    (hpairs : ∀ aa ∈ genState.addressAssociations, ∃ x ∈ P.identities,
      x.tabiAddr = aa.1 ∧ x.evmAddr K.crypto = aa.2)
    (hcodes : ∀ c ∈ genState.codes, .evmContract c.1 ∈ P.identities)
    (hserialized : ∀ e ∈ genState.serialized, e.1 ∉ tableKeys) :
    Listed P (initGenesis K v coinbase genState) := by
  have hall : ∀ {v : Stores β γ}, Listed P v →
      Listed P (mapAll K v genState.addressAssociations) := by
    intro v h
    refine List.foldlRecOn _ _ h fun v h aa haa => ?_
    obtain ⟨x, hx, ht, he⟩ := hpairs aa haa
    exact h.mapAddress hx ht he
  refine List.foldlRecOn _ _ ?_ fun v h e he => h.other (Patch.within_set (hserialized e he) _)
  refine List.foldlRecOn _ _ ?_ fun v h n _ => h.setNonce n.1 n.2
  refine List.foldlRecOn _ _ ?_ fun v h s _ => h.setState s.1 s.2.1 s.2.2
  refine List.foldlRecOn _ _ ?_ fun v h c hc => h.setCode (hcodes c hc) c.2
  exact hall (hall (h.mapAddress hcoinbase rfl rfl))

theorem kept {ops : List (Op β γ)}
    (hcode : ∀ a code, .setCode a code ∈ ops → .evmContract a ∈ P.identities)
    (hnative : ∀ call, .native call ∈ ops → ∀ v, Listed P v → Listed P ((call v).writes • v)) :
    Kept K.toKeepers (Listed P) ops where
  bank _ _ h := h.of_evm_eq (one_smul _ _)
  clear _ a h := h.clearAccountState a
  state _ a key val h := h.setState a key val
  nonce _ a n h := h.setNonce a n
  code _ a code hop h := h.setCode (hcode a code hop) code
  dissociate _ _ _ ha h := h.deleteAddressMapping ha
  native v call hop h := hnative call hop v h

end Listed

variable {K : Keepers β γ} {P : Population K.crypto} {v v' : Stores β γ}

theorem Reaches.listed (h : Reaches K P v v') : Listed P v → Listed P v' := by
  induction h with
  | refl => exact id
  | trans _ _ ih₁ ih₂ => exact fun h => ih₂ (ih₁ h)
  | other v w hw => exact fun h => h.other hw
  | evmPreprocess _ hpub hknows hpre => exact fun h => h.evmPreprocess hknows hpub hpre
  | associateSigner hkey hsigner => exact fun h => h.associateSigner hkey hsigner
  | associate hknows hassoc =>
    intro h
    obtain ⟨⟨evmAddr, tabiAddr, key⟩, haddr, hassoc⟩ := bind_eq_ok.mp hassoc
    obtain ⟨pub, hrec, hpub⟩ := bind_eq_ok.mp haddr
    exact h.precompileAssociate (hknows pub hrec) hpub hassoc
  | associatePublicKey hknows hassoc =>
    intro h
    unfold Association.associatePublicKey at hassoc
    split at hassoc
    · cases hassoc
    · rename_i pub hparse
      obtain ⟨⟨evmAddr, tabiAddr, key⟩, hpub, hassoc⟩ := bind_eq_ok.mp hassoc
      exact h.precompileAssociate (hknows pub hparse) hpub hassoc
  | associateContractAddress haddr hassoc => exact fun h => h.associateContractAddress haddr hassoc
  | initGenesis hcoinbase hpairs hcodes hserialized =>
    exact fun h => h.initGenesis hcoinbase hpairs hcodes hserialized
  | transaction hcode _ hrun hfin ih =>
    exact fun h => DBImpl.transaction_keeps (Listed.kept hcode ih) h hrun hfin

/-- **The tables undo each other** in every store reached from one without associations. -/
theorem reaches_mutuallyInverse (htabi : ∀ a, getTabiAddress v a = none)
    (hevm : ∀ t, getEVMAddress v t = none) (h : Reaches K P v v') :
    MutuallyInverse (getTabiAddress v') (getEVMAddress v') := by
  have hempty : Listed P v := ⟨∅, Set.empty_subset _, .empty htabi hevm⟩
  obtain ⟨S, -, hlists⟩ := h.listed hempty
  exact hlists.mutuallyInverse

def coinbaseAddr : Address := FixedBytes.ofBytes 20 [0xfe]
def wasmContractAddr : AccAddress := List.replicate 31 7 ++ [1]
def evmContractAddr : Address := FixedBytes.ofBytes 20 [0xc0]

def Population.ofList {C : Crypto} (l : List Identity) (hE : (l.map (Identity.evmAddr C)).Nodup)
    (hT : (l.map Identity.tabiAddr).Nodup) : Population C where
  identities := {x | x ∈ l}
  evmAddr_injOn _ hx _ hy e := List.inj_on_of_nodup_map hE hx hy e
  tabiAddr_injOn _ hx _ hy e := List.inj_on_of_nodup_map hT hx hy e

def threeIdentities : Population purse.crypto :=
  .ofList [.account purse.feeCollectorModuleAddress coinbaseAddr, .wasmContract wasmContractAddr,
    .evmContract evmContractAddr] (by decide) (by decide)

def afterGenesis (l : List (AccAddress × Address)) : Stores PurseKey ℤ :=
  initGenesis purse noStores coinbaseAddr ⟨l, [], [], [], []⟩

def revertedDestruction : List (Op PurseKey ℤ) :=
  [.setCode evmContractAddr [1], .snapshot, .selfDestruct evmContractAddr, .revertToSnapshot 1]

theorem reaches_mutuallyInverse_contracts :
    ∃ v s s' surplus,
      associateContractAddress purse (afterGenesis []) true wasmContractAddr = .ok v ∧
      DBImpl.run purse.toKeepers revertedDestruction
        (DBImpl.newDBImpl purse.toKeepers v ⟨1, []⟩ 0 false false) = .ok s ∧
      s.finalize purse.toKeepers entryOrder = .ok (s', .ok surplus) ∧
      MutuallyInverse (getTabiAddress s'.originalStores) (getEVMAddress s'.originalStores) := by
  obtain ⟨v, s, s', surplus, hv, hs, hfin⟩ : ∃ v s s' surplus,
      associateContractAddress purse (afterGenesis []) true wasmContractAddr = .ok v ∧
      DBImpl.run purse.toKeepers revertedDestruction
        (DBImpl.newDBImpl purse.toKeepers v ⟨1, []⟩ 0 false false) = .ok s ∧
      s.finalize purse.toKeepers entryOrder = .ok (s', .ok surplus) :=
    ⟨_, _, _, _, rfl, rfl, rfl⟩
  have hgenesis : Reaches purse threeIdentities noStores (afterGenesis []) :=
    .initGenesis (.head _) nofun nofun nofun
  have hcontract : Reaches purse threeIdentities (afterGenesis []) v :=
    .associateContractAddress (.tail _ (.head _)) hv
  have hcode : ∀ a code, .setCode a code ∈ revertedDestruction →
      .evmContract a ∈ threeIdentities.identities := by
    intro a code hop
    simp only [revertedDestruction, List.mem_cons, Op.setCode.injEq, reduceCtorEq,
      List.not_mem_nil, or_false] at hop
    rw [hop.1]
    exact .tail _ (.tail _ (.head _))
  have htx : Reaches purse threeIdentities v s'.originalStores :=
    .transaction hcode (fun call hop => by simp [revertedDestruction] at hop) hs hfin
  exact ⟨v, s, s', surplus, hv, hs, hfin, reaches_mutuallyInverse (fun _ => rfl) (fun _ => rfl)
    (hgenesis.trans (hcontract.trans htx))⟩

theorem initGenesis_shared :
    getEVMAddress (afterGenesis [([1], evmContractAddr), ([2], evmContractAddr)]) [1] =
        some evmContractAddr ∧
      getTabiAddress (afterGenesis [([1], evmContractAddr), ([2], evmContractAddr)])
        evmContractAddr = some [2] ∧
      ¬ MutuallyInverse
        (getTabiAddress (afterGenesis [([1], evmContractAddr), ([2], evmContractAddr)]))
        (getEVMAddress (afterGenesis [([1], evmContractAddr), ([2], evmContractAddr)])) := by
  have hback : getEVMAddress (afterGenesis [([1], evmContractAddr), ([2], evmContractAddr)]) [1] =
      some evmContractAddr := by decide
  have hforth : getTabiAddress (afterGenesis [([1], evmContractAddr), ([2], evmContractAddr)])
      evmContractAddr = some [2] := by decide
  refine ⟨hback, hforth, fun h => ?_⟩
  have hforth' := (h evmContractAddr [1]).mpr hback
  rw [hforth] at hforth'
  exact absurd hforth' (by decide)

end Tabi.Association
