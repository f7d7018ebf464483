import Tabi.Association.Bijection
import Tabi.Genesis.State
import Tabi.StateDB.Effects

/-!
# Genesis — the stores that keeper calls build

A store is *reachable* when keeper calls build it from an empty one, with any arguments and in any
order (`Reachable`).
-/

namespace Tabi.Genesis

open Support StateDB

variable {β γ : Type}

def ValidAddress (t : AccAddress) : Prop := 0 < t.length ∧ t.length ≤ 255

def plainHeads : List UInt8 :=
  [0x0b, 0x0c, 0x0d, 0x0e, 0x0f, 0x12, 0x13, 0x14, 0x15, 0x16, 0x17]

inductive Reachable (k : Keepers β γ) (J : DecJSON) : Stores β γ → Prop where
  | empty {v : Stores β γ} (h : v.evm = fun _ => none) : Reachable k J v
  | elsewhere {v v' : Stores β γ} (h : Reachable k J v) (hevm : v'.evm = v.evm) : Reachable k J v'
  | setAddressMapping {v : Stores β γ} {t : AccAddress} (h : Reachable k J v)
      (ht : ValidAddress t) (a : Address) :
      Reachable k J ((setAddressMapping k v t a).writes • v)
  | deleteAddressMapping {v : Stores β γ} (h : Reachable k J v) (t : AccAddress) (a : Address) :
      Reachable k J ((deleteAddressMapping t a : Effect β γ).writes • v)
  | setCode {v : Stores β γ} (h : Reachable k J v) (a : Address) (code : Bytes) :
      Reachable k J ((setCode k v a code).writes • v)
  | clearAccountState {v : Stores β γ} (h : Reachable k J v) (a : Address) :
      Reachable k J ((clearAccountState v a).writes • v)
  | setState {v : Stores β γ} (h : Reachable k J v) (a : Address) (key val : Hash) :
      Reachable k J ((setState a key val : Effect β γ).writes • v)
  | setNonce {v : Stores β γ} (h : Reachable k J v) (a : Address) (nonce : UInt64) :
      Reachable k J ((setNonce a nonce : Effect β γ).writes • v)
  | setLegacyBlockBloomCutoffHeight {v : Stores β γ} (h : Reachable k J v) (height : Int64) :
      Reachable k J ((setLegacyBlockBloomCutoffHeight height : Effect β γ).writes • v)
  | setCurrBaseFeePerGas {v : Stores β γ} (h : Reachable k J v) (d : ℤ) :
      Reachable k J ((setCurrBaseFeePerGas J d : Effect β γ).writes • v)
  | setNextBaseFeePerGas {v : Stores β γ} (h : Reachable k J v) (d : ℤ) :
      Reachable k J ((setNextBaseFeePerGas J d : Effect β γ).writes • v)
  | plain {v : Stores β γ} {p : Patch Bytes Bytes} (h : Reachable k J v)
      (hp : p.Within (heads plainHeads)) : Reachable k J ((Writes.ofEvm p : Writes β γ) • v)

inductive Entry (J : DecJSON) : Bytes → Bytes → Prop where
  | tabiAddress {t : AccAddress} (ht : ValidAddress t) (a : Address) :
      Entry J (evmAddressToTabiAddressKey a) t
  | evmAddress (t : AccAddress) (a : Address) : Entry J (tabiAddressToEVMAddressKey t) a.bytes
  | state (a : Address) (key : Hash) {val : Hash} (hval : val ≠ emptyHash) :
      Entry J (stateKey a ++ key.bytes) val.bytes
  | code (a : Address) (code : Bytes) : Entry J (codeKey a) code
  | codeHash (a : Address) (hash : Hash) : Entry J (codeHashKey a) hash.bytes
  | codeSize (a : Address) (n : ℕ) : Entry J (codeSizeKey a) (beBytes 8 n)
  | nonce (a : Address) (nonce : UInt64) : Entry J (nonceKey a) (beBytes 8 nonce.toNat)
  | cutoff (height : Int64) : Entry J [0x1a] (beBytes 8 height.toUInt64.toNat)
  | currBaseFee (d : ℤ) : Entry J [0x1b] (J.marshalJSON d)
  | nextBaseFee (d : ℤ) : Entry J [0x1c] (J.marshalJSON d)
  | plain {key : Bytes} (hkey : key ∈ heads plainHeads) (val : Bytes) : Entry J key val

variable {k : Keepers β γ} {J : DecJSON} {v v' : Stores β γ}

theorem validAddress_bytes (a : Address) : ValidAddress a.bytes := by
  rw [ValidAddress, a.length_eq]
  decide

theorem sets_setAddressMapping {t : AccAddress} (ht : ValidAddress t) (a : Address) :
    (setAddressMapping k v t a).writes.evm.Sets (Entry J) :=
  (Patch.sets_set (.evmAddress t a)).mul (Patch.sets_set (.tabiAddress ht a))

theorem sets_setCode (a : Address) (code : Bytes) :
    (setCode k v a code).writes.evm.Sets (Entry J) := by
  have hcode : (Patch.set (codeHashKey a) (k.keccak code).bytes * (Patch.set (codeSizeKey a)
      (beBytes 8 code.length) * Patch.set (codeKey a) code)).Sets (Entry J) :=
    (Patch.sets_set (.codeHash a _)).mul
      ((Patch.sets_set (.codeSize a _)).mul (Patch.sets_set (.code a code)))
  unfold setCode
  dsimp only
  split
  · exact hcode
  · rename_i hnone
    -- without an association the cast address is taken
    rw [getTabiAddressOrDefault, hnone]
    exact (sets_setAddressMapping (validAddress_bytes a) a).mul hcode

theorem sets_deleteIfExists (key : Bytes) : (deleteIfExists v key).Sets (Entry J) := by
  unfold deleteIfExists
  split
  · exact Patch.sets_delete key
  · exact Patch.sets_one

theorem sets_clearAccountState (a : Address) : (clearAccountState v a).writes.evm.Sets (Entry J) :=
  ((((sets_deleteIfExists _).mul (sets_deleteIfExists _)).mul (sets_deleteIfExists _)).mul
    (sets_deleteIfExists _)).mul (Patch.sets_deleteAll _)

theorem sets_setState (a : Address) (key val : Hash) :
    (setState a key val : Effect β γ).writes.evm.Sets (Entry J) := by
  show (if val = emptyHash then Patch.delete _ else Patch.set _ _).Sets _
  split
  · exact Patch.sets_delete _
  · rename_i hval
    exact Patch.sets_set (.state a key hval)

theorem sets_plain {p : Patch Bytes Bytes} (hp : p.Within (heads plainHeads)) :
    p.Sets (Entry J) := by
  intro key val hset
  refine .plain ?_ val
  by_contra hne
  rw [hp key hne] at hset
  cases hset

def Shaped (J : DecJSON) (v : Stores β γ) : Prop :=
  ∀ key val, v.evm key = some val → Entry J key val

theorem Shaped.smul (h : Shaped J v) {w : Writes β γ} (hw : w.evm.Sets (Entry J)) :
    Shaped J (w • v) :=
  fun _ _ hkey => hw.smul h hkey

theorem Reachable.shaped (h : Reachable k J v) : Shaped J v := by
  induction h with
  | empty h =>
    intro key val hkey
    rw [h] at hkey
    cases hkey
  | elsewhere _ hevm ih =>
    intro key val hkey
    rw [hevm] at hkey
    exact ih key val hkey
  | setAddressMapping _ ht a ih => exact ih.smul (sets_setAddressMapping ht a)
  | deleteAddressMapping _ t a ih =>
    exact ih.smul ((Patch.sets_delete _).mul (Patch.sets_delete _))
  | setCode _ a code ih => exact ih.smul (sets_setCode a code)
  | clearAccountState _ a ih => exact ih.smul (sets_clearAccountState a)
  | setState _ a key val ih => exact ih.smul (sets_setState a key val)
  | setNonce _ a nonce ih => exact ih.smul (Patch.sets_set (.nonce a nonce))
  | setLegacyBlockBloomCutoffHeight _ height ih => exact ih.smul (Patch.sets_set (.cutoff height))
  | setCurrBaseFeePerGas _ d ih => exact ih.smul (Patch.sets_set (.currBaseFee d))
  | setNextBaseFeePerGas _ d ih => exact ih.smul (Patch.sets_set (.nextBaseFee d))
  | plain _ hp ih => exact ih.smul (sets_plain hp)

def Coherent (k : Keepers β γ) (v : Stores β γ) : Prop :=
  ∀ a, v.evm (codeSizeKey a) = (v.evm (codeKey a)).map (fun code => beBytes 8 code.length) ∧
    v.evm (codeHashKey a) = (v.evm (codeKey a)).map fun code => (k.keccak code).bytes

theorem Coherent.smul (h : Coherent k v) {w : Writes β γ} {bs : List UInt8}
    (hw : w.evm.Within (heads bs)) (hbs : 0x07 ∉ bs ∧ 0x08 ∉ bs ∧ 0x09 ∉ bs) :
    Coherent k (w • v) := by
  intro a
  have hsize : codeSizeKey a ∉ heads bs := by simpa [codeSizeKey] using hbs.2.2
  have hhash : codeHashKey a ∉ heads bs := by simpa [codeHashKey] using hbs.2.1
  have hcode : codeKey a ∉ heads bs := by simpa [codeKey] using hbs.1
  rw [evm_of_within hw hsize, evm_of_within hw hhash, evm_of_within hw hcode]
  exact h a

theorem Coherent.setCode (h : Coherent k v) (a : Address) (code : Bytes) :
    Coherent k ((setCode k v a code).writes • v) := by
  intro b
  by_cases e : b = a
  · subst e
    simp [setCode_evm, codeSizeKey, codeHashKey, codeKey]
  · have hbytes : b.bytes ≠ a.bytes := fun hb => e (FixedBytes.ext hb)
    have hb := h b
    simp only [codeSizeKey, codeHashKey, codeKey] at hb
    simpa [setCode_evm, codeSizeKey, codeHashKey, codeKey, tabiAddressToEVMAddressKey,
      evmAddressToTabiAddressKey, hbytes] using hb

theorem Coherent.clearAccountState (h : Coherent k v) (a : Address) :
    Coherent k ((clearAccountState v a).writes • v) := by
  intro b
  have hb := h b
  rw [clearAccountState_evm]
  by_cases e : b = a
  · simp [e, StateDB.without, accountKey]
  · have hbytes : b.bytes ≠ a.bytes := fun hb => e (FixedBytes.ext hb)
    simp only [codeSizeKey, codeHashKey, codeKey] at hb
    simpa [StateDB.without, accountKey, codeSizeKey, codeHashKey, codeKey, nonceKey, stateKey,
      hbytes] using hb

theorem Reachable.coherent (h : Reachable k J v) : Coherent k v := by
  induction h with
  | empty h =>
    intro a
    rw [h]
    exact ⟨rfl, rfl⟩
  | elsewhere _ hevm ih =>
    intro a
    rw [hevm]
    exact ih a
  | setAddressMapping _ _ a ih => exact ih.smul (setAddressMapping_within _ _ _ a) (by decide)
  | deleteAddressMapping _ t a ih => exact ih.smul (deleteAddressMapping_within t a) (by decide)
  | setCode _ a code ih => exact ih.setCode a code
  | clearAccountState _ a ih => exact ih.clearAccountState a
  | setState _ a key val ih => exact ih.smul (setState_within a key val) (by decide)
  | setNonce _ a nonce ih => exact ih.smul (setNonce_within a nonce) (by decide)
  | setLegacyBlockBloomCutoffHeight _ height ih =>
    exact ih.smul (set_within 0x1a [] _) (by decide)
  | setCurrBaseFeePerGas _ d ih =>
    exact ih.smul (set_within 0x1b [] _) (by decide)
  | setNextBaseFeePerGas _ d ih =>
    exact ih.smul (set_within 0x1c [] _) (by decide)
  | plain _ hp ih => exact ih.smul hp (by decide)

theorem kept_reachable {ops : List (Op β γ)} (hnative : ∀ call, .native call ∈ ops →
      ∀ v, Reachable k J v → Reachable k J ((call v).writes • v)) :
    Kept k (Reachable k J) ops where
  bank _ _ h := h.elsewhere rfl
  clear _ a h := h.clearAccountState a
  state _ a key val h := h.setState a key val
  nonce _ a n h := h.setNonce a n
  code _ a code _ h := h.setCode a code
  dissociate _ a t _ h := h.deleteAddressMapping t a
  native v call hop h := hnative call hop v h

theorem Reachable.transaction {ops : List (Op β γ)} (hnative : ∀ call, .native call ∈ ops →
      ∀ v, Reachable k J v → Reachable k J ((call v).writes • v))
    {root : Stores β γ} {ctx : Ctx β γ} {txIndex : UInt64} {isTracing simulation : Bool}
    {s s' : DBImpl β γ} {order : MapOrder} {surplus : ℤ} (h : Reachable k J (ctx.dirty • root))
    (hrun : DBImpl.run k ops (DBImpl.newDBImpl k root ctx txIndex isTracing simulation) = .ok s)
    (hfin : s.finalize k order = .ok (s', .ok surplus)) : Reachable k J s'.originalStores :=
  DBImpl.transaction_keeps (kept_reachable hnative) h hrun hfin

section Import

variable {env : Env β γ} {codeIDs : Registry.CW → Option UInt64} {gs : Association.GenesisState}
  {I : Stores β γ → Prop}

structure ImportKeeps (env : Env β γ) (gs : Association.GenesisState) (I : Stores β γ → Prop) :
    Prop where
  coinbase : ∀ v, I v → I (Association.mapAddress env.keepers v
    env.keepers.feeCollectorModuleAddress env.coinbase)
  pair : ∀ v, ∀ aa ∈ gs.addressAssociations, I v →
    I (Association.mapAddress env.keepers v aa.1 aa.2)
  pointerCode : ∀ v k id, I v →
    I ((Writes.ofEvm (Patch.set (pointerCWCodeKey k) (beBytes 8 id)) : Writes β γ) • v)
  code : ∀ v, ∀ c ∈ gs.codes, I v → I (Association.setContractCode env.keepers v c.1 c.2)
  state : ∀ v, ∀ x ∈ gs.states, I v → I ((setState x.1 x.2.1 x.2.2 : Effect β γ).writes • v)
  nonce : ∀ v, ∀ n ∈ gs.nonces, I v → I ((setNonce n.1 n.2 : Effect β γ).writes • v)
  serialized : ∀ v, ∀ e ∈ gs.serialized, I v →
    I ((Writes.ofEvm (Patch.set e.1 e.2) : Writes β γ) • v)

theorem ImportKeeps.importState (hI : ImportKeeps env gs I) (h : I v) :
    I (importState env codeIDs v gs) := by
  have hpairs : ∀ v, I v → I (Association.mapAll env.keepers v gs.addressAssociations) :=
    fun v h => List.foldlRecOn _ _ h fun v h aa haa => hI.pair v aa haa h
  have hpointers : ∀ v, I v → I (storePointerCodes codeIDs v) := by
    intro v h
    refine List.foldlRecOn _ _ h fun v h k _ => ?_
    unfold storePointerCode
    cases codeIDs k with
    | none => exact h
    | some id => exact hI.pointerCode v k id.toNat h
  refine List.foldlRecOn gs.serialized _ ?_ fun v h e he => hI.serialized v e he h
  refine List.foldlRecOn gs.nonces _ ?_ fun v h n hn => hI.nonce v n hn h
  refine List.foldlRecOn gs.states _ ?_ fun v h x hx => hI.state v x hx h
  refine List.foldlRecOn gs.codes _ ?_ fun v h c hc => hI.code v c hc h
  exact hpairs _ (hpointers _ (hpairs _ (hI.coinbase v h)))

theorem pointerCWCodeKey_mem (k : Registry.CW) : pointerCWCodeKey k ∈ heads [0x16] := by
  simp [pointerCWCodeKey]

theorem Reachable.importState (hcoinbase : ValidAddress env.keepers.feeCollectorModuleAddress)
    (hpairs : ∀ aa ∈ gs.addressAssociations, ValidAddress aa.1)
    (hserialized : ∀ e ∈ gs.serialized, e.1 ∈ heads plainHeads)
    (h : Reachable env.keepers.toKeepers J v) :
    Reachable env.keepers.toKeepers J (importState env codeIDs v gs) := by
  refine ImportKeeps.importState ?_ h
  exact {
    coinbase := fun _ h => h.setAddressMapping hcoinbase env.coinbase
    pair := fun _ aa haa h => h.setAddressMapping (hpairs aa haa) aa.2
    pointerCode := fun _ k id h => h.plain
      (Patch.within_set (heads_mono (by decide) (pointerCWCodeKey_mem k)) _)
    code := fun _ c _ h => h.setCode c.1 c.2
    state := fun _ x _ h => h.setState x.1 x.2.1 x.2.2
    nonce := fun _ n _ h => h.setNonce n.1 n.2
    serialized := fun _ e he h => h.plain (Patch.within_set (hserialized e he) e.2) }

theorem Coherent.importState {bs : List UInt8} (hserialized : ∀ e ∈ gs.serialized, e.1 ∈ heads bs)
    (hbs : 0x07 ∉ bs ∧ 0x08 ∉ bs ∧ 0x09 ∉ bs) (h : Coherent env.keepers.toKeepers v) :
    Coherent env.keepers.toKeepers (importState env codeIDs v gs) := by
  refine ImportKeeps.importState ?_ h
  exact {
    coinbase := fun v h => h.smul (setAddressMapping_within _ v _ _) (by decide)
    pair := fun v aa _ h => h.smul (setAddressMapping_within _ v aa.1 aa.2) (by decide)
    pointerCode := fun _ k _ h => h.smul (Patch.within_set (pointerCWCodeKey_mem k) _) (by decide)
    code := fun _ c _ h => h.setCode c.1 c.2
    state := fun _ x _ h => h.smul (setState_within x.1 x.2.1 x.2.2) (by decide)
    nonce := fun _ n _ h => h.smul (setNonce_within n.1 n.2) (by decide)
    serialized := fun _ e he h => h.smul (Patch.within_set (hserialized e he) e.2) hbs }

end Import

end Tabi.Genesis
