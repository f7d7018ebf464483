import Tabi.Genesis.Import

/-!
# Genesis — the round trip

A store is exported, and the file imported into an empty store.
-/

namespace Tabi.Genesis

open Support StateDB Versioned

variable {β γ : Type}

structure EvmState (β γ : Type) where
  params : Params
  stores : Stores β γ
  entries : SortedStore Bytes Bytes
  presents : Presents entries stores.evm

variable (env : Env β γ) (J : DecJSON)

structure Agrees (x x' : EvmState β γ) : Prop where
  params : x'.params = x.params
  tabiAddress : ∀ a, getTabiAddress x'.stores a = getTabiAddress x.stores a
  evmAddress : ∀ t, getEVMAddress x'.stores t = getEVMAddress x.stores t
  code : ∀ a, storedCode x'.stores a = storedCode x.stores a
  state : ∀ a key, getState x'.stores a key = getState x.stores a key
  nonce : ∀ a, getNonce x'.stores a = getNonce x.stores a
  blockBloom : ∀ height,
    getBlockBloomWithExists x'.stores height = getBlockBloomWithExists x.stores height
  legacyBlockBloom : ∀ height,
    getLegacyBlockBloom x'.stores height = getLegacyBlockBloom x.stores height
  ercPointer : ∀ (k : Registry.ERC) ctx pointee,
    k.getPointer ctx x'.entries pointee = k.getPointer ctx x.entries pointee
  cwPointer : ∀ (k : Registry.CW) ctx pointee,
    k.getPointer env.texts.toBech32 ctx x'.entries pointee =
      k.getPointer env.texts.toBech32 ctx x.entries pointee
  pointee : ∀ pointer,
    Registry.getAnyPointerInfo x'.entries (Registry.pointerReverseRegistryKey pointer) =
      Registry.getAnyPointerInfo x.entries (Registry.pointerReverseRegistryKey pointer)
  currBaseFee :
    getCurrBaseFeePerGas J x'.params x'.stores = getCurrBaseFeePerGas J x.params x.stores
  nextBaseFee :
    getNextBaseFeePerGas J x'.params x'.stores = getNextBaseFeePerGas J x.params x.stores

def NoneHidden (v : Stores β γ) : Prop :=
  v.evm [0x0d] = none → ∀ cutoff, getLegacyBlockBloomCutoffHeight v = .ok cutoff → cutoff ≠ 0 →
    ∀ height, ¬ height < cutoff → v.evm (blockBloomKey height) = none

structure Restorable (x : EvmState β γ) : Prop where
  coinbase : getTabiAddress x.stores env.coinbase ≠ none
  codes : ∀ a, x.stores.evm (codeKey a) ≠ none → getTabiAddress x.stores a ≠ none
  back : ∀ t, rebuilt env (exported x.entries).addressAssociations t = getEVMAddress x.stores t
  blooms : NoneHidden x.stores
  currBaseFee : getCurrBaseFeePerGas J x.params x.stores = .ok x.params.minimumFeePerGas
  nextBaseFee : getNextBaseFeePerGas J x.params x.stores = .ok x.params.minimumFeePerGas

section Reads

variable {env J} {codeIDs : Registry.CW → Option UInt64} {v v' : Stores β γ}

theorem Coherent.storedCode_eq {k : Keepers β γ} (h : Coherent k v) (h' : Coherent k v')
    {a : Address} (ha : v'.evm (codeKey a) = v.evm (codeKey a)) :
    storedCode v' a = storedCode v a := by
  obtain ⟨hsize, hhash⟩ := h a
  obtain ⟨hsize', hhash'⟩ := h' a
  unfold storedCode getCode getCodeSize
  rw [ha, hsize', hhash', ha, ← hsize, ← hhash]

variable {s s' : SortedStore Bytes Bytes}

theorem ercPointer_congr (h : ∀ rest, s'.get (0x15 :: rest) = s.get (0x15 :: rest))
    (k : Registry.ERC) (ctx : Registry.Ctx) (pointee : Bytes) :
    k.getPointer ctx s' pointee = k.getPointer ctx s pointee := by
  have hnewest : newest s' (k.key pointee) = newest s (k.key pointee) := by
    refine newest_congr fun key hkey => ?_
    obtain ⟨rest, rfl⟩ := List.isPrefixOf_iff_prefix.mp hkey
    cases k <;> exact h _
  rw [Registry.ERC.getPointer, Registry.ERC.getPointer, Registry.getPointerInfo_eq,
    Registry.getPointerInfo_eq, hnewest]

theorem cwPointer_congr (h : ∀ rest, s'.get (0x15 :: rest) = s.get (0x15 :: rest))
    (B : Registry.Bech32) (k : Registry.CW) (ctx : Registry.Ctx) (pointee : Address) :
    k.getPointer B ctx s' pointee = k.getPointer B ctx s pointee := by
  have hnewest : newest s' (k.key pointee) = newest s (k.key pointee) := by
    refine newest_congr fun key hkey => ?_
    obtain ⟨rest, rfl⟩ := List.isPrefixOf_iff_prefix.mp hkey
    cases k <;> exact h _
  rw [Registry.CW.getPointer, Registry.CW.getPointer, Registry.getPointerInfo_eq,
    Registry.getPointerInfo_eq, hnewest]

theorem pointee_congr (h : ∀ rest, s'.get (0x17 :: rest) = s.get (0x17 :: rest))
    (pointer : Address) :
    Registry.getAnyPointerInfo s' (Registry.pointerReverseRegistryKey pointer) =
      Registry.getAnyPointerInfo s (Registry.pointerReverseRegistryKey pointer) := by
  refine newest_congr fun key hkey => ?_
  obtain ⟨rest, rfl⟩ := List.isPrefixOf_iff_prefix.mp hkey
  exact h _

theorem bloomOf_eq_none {bz : Option Bytes} : bloomOf bz = .ok (.zero 256, false) ↔ bz = none := by
  cases bz with
  | none => simp [bloomOf]
  | some bz =>
    refine ⟨fun h => ?_, nofun⟩
    obtain ⟨_, _, h⟩ := bind_eq_ok.mp h
    cases h

theorem getLegacyBlockBloomCutoffHeight_returns (hv : Shaped J v) :
    ∃ cutoff, getLegacyBlockBloomCutoffHeight v = .ok cutoff := by
  unfold getLegacyBlockBloomCutoffHeight
  cases h : v.evm [0x1a] with
  | none => exact ⟨0, rfl⟩
  | some bz =>
    obtain ⟨height, rfl⟩ := (hv _ _ h).of_cutoff
    cases hbz : beBytes 8 height.toUInt64.toNat with
    | nil => exact ⟨0, rfl⟩
    | cons b rest =>
      refine ⟨height.toUInt64.toInt64, ?_⟩
      show (uint64 (b :: rest) >>= fun n => pure n.toInt64) = _
      rw [← hbz, uint64_beBytes, Outcome.ok_bind, Outcome.pure_eq_ok]

theorem blockBloom_iff (hv : Shaped J v) (hcutoff : v'.evm [0x1a] = none)
    (hblooms : ∀ rest, v'.evm (0x0d :: rest) = v.evm (0x0d :: rest)) :
    (∀ height, getBlockBloomWithExists v' height = getBlockBloomWithExists v height) ↔
      NoneHidden v := by
  obtain ⟨cutoff, hc⟩ := getLegacyBlockBloomCutoffHeight_returns hv
  have hc' : getLegacyBlockBloomCutoffHeight v' = .ok 0 := by
    simp [getLegacyBlockBloomCutoffHeight, hcutoff]
  have hkey : ∀ height, v'.evm (blockBloomKey height) = v.evm (blockBloomKey height) :=
    fun height => hblooms _
  unfold getBlockBloomWithExists
  rw [hblooms]
  cases h : v.evm [0x0d] with
  | some bz => simp [NoneHidden, h]
  | none =>
    simp only [hc, hc', hkey, Outcome.ok_bind, true_or, if_true]
    constructor
    · intro hagree _ cutoff' hcut hne height hge
      cases hc.symm.trans hcut
      have hheight := hagree height
      rw [if_neg (not_or.mpr ⟨hne, hge⟩)] at hheight
      exact bloomOf_eq_none.mp hheight
    · intro hnone height
      split
      · rfl
      · rename_i hcut
        obtain ⟨hne, hge⟩ := not_or.mp hcut
        rw [hnone h cutoff hc hne height hge]

end Reads

section Imported

variable {env J} {codeIDs : Registry.CW → Option UInt64} {x x' : EvmState β γ}

structure Imported (env : Env β γ) (codeIDs : Registry.CW → Option UInt64) (x x' : EvmState β γ) :
    Prop where
  params : x'.params = x.params
  stores : ∃ v₀ : Stores β γ, (v₀.evm = fun _ => none) ∧
    x'.stores = importState env codeIDs v₀ (exported x.entries)

namespace Imported

theorem exists_of_shaped (hT : env.texts.ReadBack) (hx : Shaped J x.stores)
    (hp : x.params.validatePairs = .ok ()) (codeIDs : Registry.CW → Option UInt64) {v₀ : Stores β γ}
    (h₀ : v₀.evm = fun _ => none) :
    ∃ g x', exportGenesis env.texts x.entries x.params = .ok g ∧
      initGenesis env codeIDs v₀ g = .ok (x'.params, x'.stores) ∧ Imported env codeIDs x x' := by
  obtain ⟨g, hg, hparams, hparse⟩ := parse_export hT hx x.presents x.params
  have hempty : Listable v₀ := ⟨.empty, fun _ => by rw [h₀]; rfl⟩
  have hlist : Listable (importState env codeIDs v₀ (exported x.entries)) := hempty.importState
  obtain ⟨s', hs'⟩ := hlist
  refine ⟨g, ⟨x.params, _, s', hs'⟩, hg, ?_, rfl, v₀, h₀, rfl⟩
  rw [initGenesis, hparams, setParams, hp, hparse]
  rfl

theorem copied (h : Imported env codeIDs x x') {b : UInt8} (hb : b = 0x0d ∨ b = 0x15 ∨ b = 0x17)
    (rest : Bytes) : x'.stores.evm (b :: rest) = x.stores.evm (b :: rest) := by
  obtain ⟨v₀, h₀, hx'⟩ := h.stores
  rw [hx']
  rcases hb with rfl | rfl | rfl <;>
    simp [importState_other x.presents h₀, Genesis.copied, serializedPrefixes]

theorem get (h : Imported env codeIDs x x') {b : UInt8} (hb : b = 0x0d ∨ b = 0x15 ∨ b = 0x17)
    (rest : Bytes) : x'.entries.get (b :: rest) = x.entries.get (b :: rest) := by
  rw [x'.presents, x.presents, h.copied hb]

theorem lost (h : Imported env codeIDs x x') {b : UInt8} (hb : b = 0x1a ∨ b = 0x1b ∨ b = 0x1c) :
    x'.stores.evm [b] = none := by
  obtain ⟨v₀, h₀, hx'⟩ := h.stores
  rw [hx']
  rcases hb with rfl | rfl | rfl <;>
    simp [importState_other x.presents h₀, Genesis.copied, serializedPrefixes]

theorem currBaseFee (h : Imported env codeIDs x x') :
    getCurrBaseFeePerGas J x'.params x'.stores = .ok x.params.minimumFeePerGas := by
  rw [getCurrBaseFeePerGas, baseFeeAt, h.lost (.inr (.inl rfl)), h.params]

theorem nextBaseFee (h : Imported env codeIDs x x') :
    getNextBaseFeePerGas J x'.params x'.stores = .ok x.params.minimumFeePerGas := by
  rw [getNextBaseFeePerGas, baseFeeAt, h.lost (.inr (.inr rfl)), h.params]

theorem tables_iff (h : Imported env codeIDs x x') (hx : Shaped J x.stores) :
    ((∀ a, getTabiAddress x'.stores a = getTabiAddress x.stores a) ∧
        ∀ t, getEVMAddress x'.stores t = getEVMAddress x.stores t) ↔
      getTabiAddress x.stores env.coinbase ≠ none ∧
        (∀ a, x.stores.evm (codeKey a) ≠ none → getTabiAddress x.stores a ≠ none) ∧
        ∀ t, rebuilt env (exported x.entries).addressAssociations t = getEVMAddress x.stores t := by
  obtain ⟨v₀, h₀, hx'⟩ := h.stores
  rw [hx', getTabiAddress_importState_iff hx x.presents h₀, and_assoc]
  refine and_congr_right fun _ => and_congr_right fun hcodes => ?_
  simp only [getEVMAddress_importState hx x.presents h₀ hcodes]

theorem storedCode (h : Imported env codeIDs x x') (hx : Reachable env.keepers.toKeepers J x.stores)
    (a : Address) : StateDB.storedCode x'.stores a = StateDB.storedCode x.stores a := by
  obtain ⟨v₀, h₀, hx'⟩ := h.stores
  have hempty : Coherent env.keepers.toKeepers v₀ := (Reachable.empty (J := J) h₀).coherent
  rw [hx']
  exact hx.coherent.storedCode_eq (hempty.importState (fun _ => serialized_mem_heads) (by decide))
    (importState_code hx.shaped x.presents h₀ a)

theorem getState (h : Imported env codeIDs x x') (hx : Shaped J x.stores) (a : Address)
    (key : Hash) : StateDB.getState x'.stores a key = StateDB.getState x.stores a key := by
  obtain ⟨v₀, h₀, hx'⟩ := h.stores
  rw [StateDB.getState, hx', importState_state hx x.presents h₀, StateDB.getState]

theorem getNonce (h : Imported env codeIDs x x') (hx : Shaped J x.stores) (a : Address) :
    StateDB.getNonce x'.stores a = StateDB.getNonce x.stores a := by
  obtain ⟨v₀, h₀, hx'⟩ := h.stores
  rw [StateDB.getNonce, hx', importState_nonce hx x.presents h₀, StateDB.getNonce]

theorem getLegacyBlockBloom (h : Imported env codeIDs x x') (height : Int64) :
    Genesis.getLegacyBlockBloom x'.stores height = Genesis.getLegacyBlockBloom x.stores height := by
  rw [Genesis.getLegacyBlockBloom, blockBloomKey, h.copied (.inl rfl), Genesis.getLegacyBlockBloom,
    blockBloomKey]

theorem agrees_iff (h : Imported env codeIDs x x')
    (hx : Reachable env.keepers.toKeepers J x.stores) :
    Agrees env J x x' ↔ Restorable env J x := by
  have htables := h.tables_iff hx.shaped
  have hblooms := blockBloom_iff hx.shaped (h.lost (.inl rfl)) (h.copied (.inl rfl))
  constructor
  · intro hagrees
    obtain ⟨hcoinbase, hcodes, hback⟩ := htables.mp ⟨hagrees.tabiAddress, hagrees.evmAddress⟩
    exact {
      coinbase := hcoinbase
      codes := hcodes
      back := hback
      blooms := hblooms.mp hagrees.blockBloom
      currBaseFee := hagrees.currBaseFee.symm.trans h.currBaseFee
      nextBaseFee := hagrees.nextBaseFee.symm.trans h.nextBaseFee }
  · intro hrestorable
    obtain ⟨htabi, hevm⟩ :=
      htables.mpr ⟨hrestorable.coinbase, hrestorable.codes, hrestorable.back⟩
    exact {
      params := h.params
      tabiAddress := htabi
      evmAddress := hevm
      code := h.storedCode hx
      state := h.getState hx.shaped
      nonce := h.getNonce hx.shaped
      blockBloom := hblooms.mpr hrestorable.blooms
      legacyBlockBloom := h.getLegacyBlockBloom
      ercPointer := ercPointer_congr (h.get (.inr (.inl rfl)))
      cwPointer := cwPointer_congr (h.get (.inr (.inl rfl))) _
      pointee := pointee_congr (h.get (.inr (.inr rfl)))
      currBaseFee := h.currBaseFee.trans hrestorable.currBaseFee.symm
      nextBaseFee := h.nextBaseFee.trans hrestorable.nextBaseFee.symm }

end Imported

theorem rebuilt_of_mutuallyInverse {l : List (AccAddress × Address)}
    {table : Address → Option AccAddress} {back : AccAddress → Option Address}
    (hpairs : Dumps Prod.snd Prod.fst l table) (hinv : MutuallyInverse table back)
    (hcoinbase : table env.coinbase = some env.keepers.feeCollectorModuleAddress) (t : AccAddress) :
    rebuilt env l t = back t := by
  have hpair : ∀ {a}, back t = some a → l.filter (fun aa => aa.1 = t) ≠ [] := by
    intro a ha hnil
    obtain ⟨aa, haa, -, hat⟩ := (hpairs a t).mp ((hinv a t).mpr ha)
    have hmem : aa ∈ l.filter fun aa => aa.1 = t := List.mem_filter.mpr ⟨haa, by simpa using hat⟩
    rw [hnil] at hmem
    cases hmem
  unfold rebuilt
  cases hlast : (l.filter fun aa => aa.1 = t).getLast? with
  | some aa =>
    obtain ⟨haa, hat⟩ := List.mem_filter.mp (List.mem_of_getLast? hlast)
    have htable : table aa.2 = some t := (hpairs aa.2 t).mpr ⟨aa, haa, rfl, by simpa using hat⟩
    rw [(hinv aa.2 t).mp htable]
    rfl
  | none =>
    have hnone : back t = none := by
      by_contra hne
      obtain ⟨a, ha⟩ := Option.ne_none_iff_exists'.mp hne
      exact hpair ha (List.getLast?_eq_none_iff.mp hlast)
    have hne : t ≠ env.keepers.feeCollectorModuleAddress := by
      rintro rfl
      rw [(hinv _ _).mp hcoinbase] at hnone
      cases hnone
    rw [hnone, if_neg hne]
    rfl

theorem restorable_iff_fees (hx : Shaped J x.stores)
    (hinv : MutuallyInverse (getTabiAddress x.stores) (getEVMAddress x.stores))
    (hcoinbase : getTabiAddress x.stores env.coinbase = some env.keepers.feeCollectorModuleAddress)
    (hcodes : ∀ a, x.stores.evm (codeKey a) ≠ none → getTabiAddress x.stores a ≠ none)
    (hblooms : NoneHidden x.stores) :
    Restorable env J x ↔
      getCurrBaseFeePerGas J x.params x.stores = .ok x.params.minimumFeePerGas ∧
        getNextBaseFeePerGas J x.params x.stores = .ok x.params.minimumFeePerGas := by
  constructor
  · intro h
    exact ⟨h.currBaseFee, h.nextBaseFee⟩
  · rintro ⟨hcurr, hnext⟩
    exact {
      coinbase := by simp [hcoinbase]
      codes := hcodes
      back := rebuilt_of_mutuallyInverse (dumps_associations hx x.presents) hinv hcoinbase
      blooms := hblooms
      currBaseFee := hcurr
      nextBaseFee := hnext }

/-- **When the round trip restores the state.**  For every reachable store, export and import
return, and what is read agrees exactly when the store is `Restorable`. -/
theorem genesis_roundTrip_iff (hT : env.texts.ReadBack)
    (hx : Reachable env.keepers.toKeepers J x.stores) (hp : x.params.validatePairs = .ok ())
    (codeIDs : Registry.CW → Option UInt64) {v₀ : Stores β γ} (h₀ : v₀.evm = fun _ => none) :
    ∃ g x', exportGenesis env.texts x.entries x.params = .ok g ∧
      initGenesis env codeIDs v₀ g = .ok (x'.params, x'.stores) ∧
      (Agrees env J x x' ↔ Restorable env J x) := by
  obtain ⟨g, x', hg, hinit, h⟩ := Imported.exists_of_shaped hT hx.shaped hp codeIDs h₀
  exact ⟨g, x', hg, hinit, h.agrees_iff hx⟩

end Imported

def plainTexts : Texts where
  accAddressFromBech32 := some
  string := id
  hex := FixedBytes.bytes
  hexToAddress := .ofBytes 20

def plainEnv : Env Association.PurseKey ℤ where
  keepers := Association.purse
  texts := plainTexts
  coinbase := Association.coinbaseAddr

def plainJSON : DecJSON where
  marshalJSON d := natBytes d.toNat
  unmarshalJSON bz := .ok (beNat bz)

theorem plainEnv_readBack : plainEnv.texts.ReadBack where
  bech32 _ := rfl
  hex := FixedBytes.ofBytes_bytes

def fresh : EvmState Association.PurseKey ℤ where
  params := ⟨BaseFee.defaultParams, [], false⟩
  stores := Association.mapAddress Association.purse Association.noStores [0xfc]
    Association.coinbaseAddr
  entries :=
    (SortedStore.empty.set (evmAddressToTabiAddressKey Association.coinbaseAddr) [0xfc]).set
      (tabiAddressToEVMAddressKey [0xfc]) Association.coinbaseAddr.bytes
  presents := by
    have hempty : Presents SortedStore.empty Association.noStores.evm := fun _ => rfl
    rw [Association.mapAddress_evm]
    exact (hempty.set _ _).set _ _

def raised : EvmState Association.PurseKey ℤ where
  params := fresh.params
  stores := (setNextBaseFeePerGas plainJSON (1018900000 * Dec.unit)).writes • fresh.stores
  entries := fresh.entries.set [0x1c] (plainJSON.marshalJSON (1018900000 * Dec.unit))
  presents := by
    rw [setNextBaseFeePerGas, ofEvm_smul_evm]
    exact fresh.presents.set _ _

theorem fresh_reachable : Reachable plainEnv.keepers.toKeepers plainJSON fresh.stores :=
  (Reachable.empty rfl).setAddressMapping ⟨by decide, by decide⟩ Association.coinbaseAddr

theorem fresh_params : fresh.params.validatePairs = .ok () := rfl

theorem fresh_restorable : Restorable plainEnv plainJSON fresh := by
  have htabi : getTabiAddress fresh.stores =
      Function.update (fun _ => none) Association.coinbaseAddr (some [0xfc]) :=
    Association.getTabiAddress_mapAddress _ _ _ _
  have hevm : getEVMAddress fresh.stores =
      Function.update (fun _ => none) [0xfc] (some Association.coinbaseAddr) :=
    Association.getEVMAddress_mapAddress _ _ _ _
  have hother : ∀ {key}, key ∉ heads [0x01, 0x02] → fresh.stores.evm key = none :=
    fun hkey => evm_of_within (setAddressMapping_within _ _ _ _) hkey _
  refine (restorable_iff_fees fresh_reachable.shaped ?_ ?_ ?_ ?_).mpr ⟨?_, ?_⟩
  · rw [htabi, hevm]
    intro a t
    simp [Function.update_apply, eq_comm, and_comm]
  · rw [htabi]
    exact Function.update_self _ _ _
  · intro a ha
    exact absurd (hother (by simp [codeKey])) ha
  · intro _ _ _ _ height _
    exact hother (by simp [blockBloomKey])
  · rw [getCurrBaseFeePerGas, baseFeeAt, hother (by simp)]
  · rw [getNextBaseFeePerGas, baseFeeAt, hother (by simp)]

theorem genesis_roundTrip_fresh :
    ∃ (g : GenesisState) (x' : EvmState Association.PurseKey ℤ),
      exportGenesis plainEnv.texts fresh.entries fresh.params = .ok g ∧
      initGenesis plainEnv (fun _ => some 1) Association.noStores g = .ok (x'.params, x'.stores) ∧
      Agrees plainEnv plainJSON fresh x' := by
  have hempty : Association.noStores.evm = fun _ => none := rfl
  obtain ⟨g, x', hg, hinit, hagrees⟩ := genesis_roundTrip_iff plainEnv_readBack fresh_reachable
    fresh_params (fun _ => some 1) hempty
  exact ⟨g, x', hg, hinit, hagrees.mpr fresh_restorable⟩

theorem nextBaseFee_lost :
    Reachable plainEnv.keepers.toKeepers plainJSON raised.stores ∧
      raised.params.validatePairs = .ok () ∧
      getNextBaseFeePerGas plainJSON raised.params raised.stores = .ok (1018900000 * Dec.unit) ∧
      ∃ (g : GenesisState) (x' : EvmState Association.PurseKey ℤ),
        exportGenesis plainEnv.texts raised.entries raised.params = .ok g ∧
        initGenesis plainEnv (fun _ => some 1) Association.noStores g =
          .ok (x'.params, x'.stores) ∧
        getNextBaseFeePerGas plainJSON x'.params x'.stores = .ok (1000000000 * Dec.unit) := by
  have hreach : Reachable plainEnv.keepers.toKeepers plainJSON raised.stores :=
    fresh_reachable.setNextBaseFeePerGas (1018900000 * Dec.unit)
  have hfee : raised.stores.evm [0x1c] = some (natBytes (1018900000 * Dec.unit).toNat) :=
    Patch.set_smul_same _ _ _
  have hempty : Association.noStores.evm = fun _ => none := rfl
  refine ⟨hreach, fresh_params, ?_, ?_⟩
  · rw [getNextBaseFeePerGas, baseFeeAt, hfee]
    show Except.ok (beNat (natBytes _) : ℤ) = _
    rw [beNat_natBytes, Int.toNat_of_nonneg (by decide)]
  · obtain ⟨g, x', hg, hinit, h⟩ := Imported.exists_of_shaped plainEnv_readBack hreach.shaped
      fresh_params (fun _ => some 1) hempty
    exact ⟨g, x', hg, hinit, h.nextBaseFee⟩

end Tabi.Genesis
