import Tabi.Genesis.Export

/-!
# Genesis — what is imported

`InitGenesis` in stages: the associations and the codes of the pointers (`associated`), the codes
(`coded`), and the other entries.
-/

namespace Tabi.Genesis

open Support StateDB

variable {β γ : Type} (env : Env β γ) (codeIDs : Registry.CW → Option UInt64) (v : Stores β γ)
  (gs : Association.GenesisState)

def associated : Stores β γ :=
  Association.mapAll env.keepers (keeperInitGenesis env codeIDs v gs) gs.addressAssociations

def coded : Stores β γ :=
  gs.codes.foldl (fun v c => Association.setContractCode env.keepers v c.1 c.2)
    (associated env codeIDs v gs)

variable {env codeIDs v gs} {key : Bytes}

theorem mapAll_evm {l : List (AccAddress × Address)} (hkey : key ∉ heads [0x01, 0x02]) :
    (Association.mapAll env.keepers v l).evm key = v.evm key :=
  foldl_frame (fun v => v.evm key)
    (fun v aa _ => evm_of_within (setAddressMapping_within _ v aa.1 aa.2) hkey v) v

theorem storePointerCodes_evm (hkey : key ∉ heads [0x16]) :
    (storePointerCodes codeIDs v).evm key = v.evm key := by
  refine foldl_frame (fun v => v.evm key) (fun v k _ => ?_) v
  unfold storePointerCode
  cases codeIDs k with
  | none => rfl
  | some id => exact evm_of_within (set_within 0x16 _ _) hkey v

theorem associated_evm (hkey : key ∉ heads [0x01, 0x02, 0x16]) :
    (associated env codeIDs v gs).evm key = v.evm key := by
  have hpairs : key ∉ heads [0x01, 0x02] := fun h => hkey (heads_mono (by decide) h)
  have hcodes : key ∉ heads [0x16] := fun h => hkey (heads_mono (by decide) h)
  rw [associated, mapAll_evm hpairs, keeperInitGenesis, storePointerCodes_evm hcodes,
    mapAll_evm hpairs]
  exact evm_of_within (setAddressMapping_within _ v _ _) hpairs v

theorem coded_evm_associated (hkey : key ∉ heads [0x01, 0x02, 0x07, 0x08, 0x09]) :
    (coded env codeIDs v gs).evm key = (associated env codeIDs v gs).evm key :=
  foldl_frame (fun v : Stores β γ => v.evm key)
    (fun v c _ => evm_of_within (setCode_within _ v c.1 c.2) hkey v) _

theorem coded_evm (hkey : key ∉ heads [0x01, 0x02, 0x07, 0x08, 0x09, 0x16]) :
    (coded env codeIDs v gs).evm key = v.evm key := by
  rw [coded_evm_associated fun h => hkey (heads_mono (by decide) h)]
  exact associated_evm fun h => hkey (heads_mono (by decide) h)

theorem setStates_evm {l : List (Address × Hash × Hash)} (hkey : key ∉ heads [0x03]) :
    (l.foldl (fun v s => (setState s.1 s.2.1 s.2.2 : Effect β γ).writes • v) v).evm key =
      v.evm key :=
  foldl_frame (fun v => v.evm key)
    (fun v s _ => evm_of_within (setState_within s.1 s.2.1 s.2.2) hkey v) v

theorem setNonces_evm {l : List (Address × UInt64)} (hkey : key ∉ heads [0x0a]) :
    (l.foldl (fun v n => (setNonce n.1 n.2 : Effect β γ).writes • v) v).evm key = v.evm key :=
  foldl_frame (fun v => v.evm key) (fun v n _ => evm_of_within (setNonce_within n.1 n.2) hkey v) v

theorem enters_codes (l : List (Address × Bytes)) :
    Enters (fun v c => Association.setContractCode env.keepers v c.1 c.2)
      (fun v a => v.evm (codeKey a)) Prod.fst Prod.snd l := by
  refine enters_of_set (part_injective 0x07) fun v c _ a => ?_
  rw [Association.setContractCode, setCode_evm]
  simp [codeHashKey, codeSizeKey, codeKey, tabiAddressToEVMAddressKey, evmAddressToTabiAddressKey]

theorem enters_states {l : List (Address × Hash × Hash)} (hl : ∀ x ∈ l, x.2.2 ≠ emptyHash) :
    Enters (fun v s => (setState s.1 s.2.1 s.2.2 : Effect β γ).writes • v)
      (fun (v : Stores β γ) i => v.evm (stateKey i.1 ++ i.2.bytes)) (fun x => (x.1, x.2.1))
      (fun x => x.2.2.bytes) l := by
  refine enters_of_set storage_injective fun v x hx i => ?_
  show ((if x.2.2 = emptyHash then Patch.delete _ else Patch.set _ _) • v.evm) _ = _
  rw [if_neg (hl x hx), Patch.set_smul]

theorem enters_nonces (l : List (Address × UInt64)) :
    Enters (fun v n => (setNonce n.1 n.2 : Effect β γ).writes • v)
      (fun (v : Stores β γ) a => v.evm (nonceKey a)) Prod.fst (fun n => beBytes 8 n.2.toNat) l :=
  enters_of_set (part_injective 0x0a) fun v _ _ _ => Patch.set_smul _ _ v.evm _

theorem enters_serialized (l : List (Bytes × Bytes)) :
    Enters (fun v e => (Writes.ofEvm (Patch.set e.1 e.2) : Writes β γ) • v)
      (fun (v : Stores β γ) key => v.evm key) Prod.fst Prod.snd l :=
  enters_of_set Function.injective_id fun v e _ key => Patch.set_smul e.1 e.2 v.evm key

section Exported

variable {J : DecJSON} {v₀ : Stores β γ} {s : SortedStore Bytes Bytes}

theorem importState_evm (hs : Presents s v.evm) (key : Bytes) :
    (importState env codeIDs v₀ (exported s)).evm key = (copied v.evm key).or
      (((exported s).nonces.foldl (fun v n => (setNonce n.1 n.2 : Effect β γ).writes • v)
        ((exported s).states.foldl (fun v s => (setState s.1 s.2.1 s.2.2 : Effect β γ).writes • v)
          (coded env codeIDs v₀ (exported s)))).evm key) :=
  (enters_serialized _).foldl_dump (dumps_serialized hs) _ key

theorem importState_state (hv : Shaped J v) (hs : Presents s v.evm) (h₀ : v₀.evm = fun _ => none)
    (a : Address) (slot : Hash) :
    (importState env codeIDs v₀ (exported s)).evm (stateKey a ++ slot.bytes) =
      v.evm (stateKey a ++ slot.bytes) := by
  have hstates := (enters_states (exported_states_ne hv hs)).foldl_dump (dumps_states hv hs)
    (coded env codeIDs v₀ (exported s)) (a, slot)
  rw [importState_evm hs, setNonces_evm (by simp [stateKey]), hstates,
    coded_evm (by simp [stateKey]), h₀]
  simp [copied, serializedPrefixes, stateKey]

theorem importState_nonce (hv : Shaped J v) (hs : Presents s v.evm) (h₀ : v₀.evm = fun _ => none)
    (a : Address) :
    (importState env codeIDs v₀ (exported s)).evm (nonceKey a) = v.evm (nonceKey a) := by
  rw [importState_evm hs, (enters_nonces _).foldl_dump (dumps_nonces hv hs),
    setStates_evm (by simp [nonceKey]), coded_evm (by simp [nonceKey]), h₀]
  simp [copied, serializedPrefixes, nonceKey]

theorem importState_code (hv : Shaped J v) (hs : Presents s v.evm) (h₀ : v₀.evm = fun _ => none)
    (a : Address) :
    (importState env codeIDs v₀ (exported s)).evm (codeKey a) = v.evm (codeKey a) := by
  rw [importState_evm hs, setNonces_evm (by simp [codeKey]), setStates_evm (by simp [codeKey]),
    coded, (enters_codes _).foldl_dump (dumps_codes hv hs), associated_evm (by simp [codeKey]), h₀]
  simp [copied, serializedPrefixes, codeKey]

theorem importState_other (hs : Presents s v.evm) (h₀ : v₀.evm = fun _ => none)
    (hkey : key ∉ heads [0x01, 0x02, 0x03, 0x07, 0x08, 0x09, 0x0a, 0x16]) :
    (importState env codeIDs v₀ (exported s)).evm key = copied v.evm key := by
  rw [importState_evm hs, setNonces_evm fun h => hkey (heads_mono (by decide) h),
    setStates_evm fun h => hkey (heads_mono (by decide) h),
    coded_evm fun h => hkey (heads_mono (by decide) h), h₀, Option.or_none]

theorem importState_table (hs : Presents s v.evm) {b : UInt8} (hb : b = 0x01 ∨ b = 0x02)
    (rest : Bytes) : (importState env codeIDs v₀ (exported s)).evm (b :: rest) =
      (coded env codeIDs v₀ (exported s)).evm (b :: rest) := by
  rcases hb with rfl | rfl
  · rw [importState_evm hs, setNonces_evm (by simp), setStates_evm (by simp)]
    simp [copied, serializedPrefixes]
  · rw [importState_evm hs, setNonces_evm (by simp), setStates_evm (by simp)]
    simp [copied, serializedPrefixes]

def rebuilt (env : Env β γ) (l : List (AccAddress × Address)) (t : AccAddress) : Option Address :=
  (((l.filter fun aa => aa.1 = t).getLast?).map Prod.snd).or
    (if t = env.keepers.feeCollectorModuleAddress then some env.coinbase else none)

theorem enters_tabiAddresses (l : List (AccAddress × Address)) :
    Enters (fun v aa => Association.mapAddress env.keepers v aa.1 aa.2) getTabiAddress
      Prod.snd Prod.fst l :=
  fun v aa _ => Association.getTabiAddress_mapAddress env.keepers v aa.1 aa.2

theorem enters_evmAddresses (l : List (AccAddress × Address)) :
    Enters (fun v aa => Association.mapAddress env.keepers v aa.1 aa.2) getEVMAddress
      Prod.fst Prod.snd l :=
  fun v aa _ => Association.getEVMAddress_mapAddress env.keepers v aa.1 aa.2

theorem getTabiAddress_storePointerCodes (a : Address) :
    getTabiAddress (storePointerCodes codeIDs v) a = getTabiAddress v a :=
  storePointerCodes_evm (by simp [evmAddressToTabiAddressKey])

theorem getEVMAddress_storePointerCodes (t : AccAddress) :
    getEVMAddress (storePointerCodes codeIDs v) t = getEVMAddress v t := by
  rw [getEVMAddress, storePointerCodes_evm (by simp [tabiAddressToEVMAddressKey]), getEVMAddress]

theorem getTabiAddress_associated {table : Address → Option AccAddress}
    (hpairs : Dumps Prod.snd Prod.fst gs.addressAssociations table) (h₀ : v.evm = fun _ => none)
    (a : Address) :
    getTabiAddress (associated env codeIDs v gs) a = (table a).or
      (if a = env.coinbase then some env.keepers.feeCollectorModuleAddress else none) := by
  have hfirst : getTabiAddress (Association.mapAddress env.keepers v
      env.keepers.feeCollectorModuleAddress env.coinbase) a =
      if a = env.coinbase then some env.keepers.feeCollectorModuleAddress else none := by
    rw [Association.getTabiAddress_mapAddress, Function.update_apply, getTabiAddress, h₀]
  rw [associated, Association.mapAll, (enters_tabiAddresses _).foldl_dump hpairs, keeperInitGenesis,
    getTabiAddress_storePointerCodes, Association.mapAll,
    (enters_tabiAddresses _).foldl_dump hpairs, hfirst, ← Option.or_assoc, Option.or_self]

theorem getEVMAddress_associated (h₀ : v.evm = fun _ => none) (t : AccAddress) :
    getEVMAddress (associated env codeIDs v gs) t = rebuilt env gs.addressAssociations t := by
  have hfirst : getEVMAddress (Association.mapAddress env.keepers v
      env.keepers.feeCollectorModuleAddress env.coinbase) t =
      if t = env.keepers.feeCollectorModuleAddress then some env.coinbase else none := by
    rw [Association.getEVMAddress_mapAddress, Function.update_apply, getEVMAddress, h₀,
      Option.map_none]
  rw [associated, Association.mapAll, (enters_evmAddresses _).foldl_last, keeperInitGenesis,
    getEVMAddress_storePointerCodes, Association.mapAll, (enters_evmAddresses _).foldl_last, hfirst,
    ← Option.or_assoc, Option.or_self, rebuilt]

theorem getTabiAddress_codes (l : List (Address × Bytes)) (v : Stores β γ) (a : Address) :
    getTabiAddress (l.foldl (fun v c => Association.setContractCode env.keepers v c.1 c.2) v) a =
      (getTabiAddress v a).or (if a ∈ l.map Prod.fst then some a.bytes else none) := by
  induction l generalizing v with
  | nil => simp
  | cons c l ih =>
    rw [List.foldl_cons, ih, Association.setContractCode, getTabiAddress_setCode_or]
    by_cases e : a = c.1
    · simp [← e]
    · rw [if_neg e, Option.or_none]
      congr 1
      exact if_congr (by simp [e]) rfl rfl

theorem getEVMAddress_codes {l : List (Address × Bytes)} {v : Stores β γ}
    (hl : ∀ c ∈ l, getTabiAddress v c.1 ≠ none) (t : AccAddress) :
    getEVMAddress (l.foldl (fun v c => Association.setContractCode env.keepers v c.1 c.2) v) t =
      getEVMAddress v t := by
  induction l generalizing v with
  | nil => rfl
  | cons c l ih =>
    obtain ⟨hc, hl⟩ := List.forall_mem_cons.mp hl
    rw [List.foldl_cons, ih, Association.setContractCode, getEVMAddress_setCode hc]
    intro d hd
    rw [Association.setContractCode, getTabiAddress_setCode hc]
    exact hl d hd

theorem mem_exported_codes (hv : Shaped J v) (hs : Presents s v.evm) (a : Address) :
    a ∈ (exported s).codes.map Prod.fst ↔ v.evm (codeKey a) ≠ none := by
  rw [List.mem_map, Option.ne_none_iff_exists']
  constructor
  · rintro ⟨c, hc, rfl⟩
    exact ⟨c.2, (dumps_codes hv hs _ _).mpr ⟨c, hc, rfl, rfl⟩⟩
  · rintro ⟨code, hcode⟩
    obtain ⟨c, hc, hca, -⟩ := (dumps_codes hv hs a code).mp hcode
    exact ⟨c, hc, hca⟩

theorem getTabiAddress_importState (hv : Shaped J v) (hs : Presents s v.evm)
    (h₀ : v₀.evm = fun _ => none) (a : Address) :
    getTabiAddress (importState env codeIDs v₀ (exported s)) a = ((getTabiAddress v a).or
      (if a = env.coinbase then some env.keepers.feeCollectorModuleAddress else none)).or
      (if v.evm (codeKey a) ≠ none then some a.bytes else none) := by
  have hcoded : getTabiAddress (importState env codeIDs v₀ (exported s)) a =
      getTabiAddress (coded env codeIDs v₀ (exported s)) a :=
    importState_table hs (.inl rfl) a.bytes
  rw [hcoded, coded, getTabiAddress_codes, getTabiAddress_associated (dumps_associations hv hs) h₀]
  congr 1
  exact if_congr (mem_exported_codes hv hs a) rfl rfl

theorem getTabiAddress_importState_iff (hv : Shaped J v) (hs : Presents s v.evm)
    (h₀ : v₀.evm = fun _ => none) :
    (∀ a, getTabiAddress (importState env codeIDs v₀ (exported s)) a = getTabiAddress v a) ↔
      getTabiAddress v env.coinbase ≠ none ∧
        ∀ a, v.evm (codeKey a) ≠ none → getTabiAddress v a ≠ none := by
  simp only [getTabiAddress_importState hv hs h₀]
  constructor
  · intro h
    refine ⟨fun hnone => ?_, fun a hcode hnone => ?_⟩
    · have hcoinbase := h env.coinbase
      simp [hnone] at hcoinbase
    · have ha := h a
      simp [hnone, hcode] at ha
  · rintro ⟨hcoinbase, hcodes⟩ a
    cases ha : getTabiAddress v a with
    | some t => simp
    | none =>
      have hne : a ≠ env.coinbase := fun e => hcoinbase (e ▸ ha)
      have hcode : v.evm (codeKey a) = none := by
        by_contra hcode
        exact hcodes a hcode ha
      simp [hne, hcode]

theorem getEVMAddress_importState (hv : Shaped J v) (hs : Presents s v.evm)
    (h₀ : v₀.evm = fun _ => none)
    (hcodes : ∀ a, v.evm (codeKey a) ≠ none → getTabiAddress v a ≠ none) (t : AccAddress) :
    getEVMAddress (importState env codeIDs v₀ (exported s)) t =
      rebuilt env (exported s).addressAssociations t := by
  have hassociated : ∀ c ∈ (exported s).codes,
      getTabiAddress (associated env codeIDs v₀ (exported s)) c.1 ≠ none := by
    intro c hc
    have hbound := hcodes c.1 ((mem_exported_codes hv hs c.1).mp (List.mem_map_of_mem hc))
    rw [getTabiAddress_associated (dumps_associations hv hs) h₀]
    simp [hbound]
  rw [getEVMAddress, tabiAddressToEVMAddressKey, importState_table hs (.inr rfl)]
  show getEVMAddress (coded env codeIDs v₀ (exported s)) t = _
  rw [coded, getEVMAddress_codes hassociated, getEVMAddress_associated h₀]

theorem serialized_mem_heads {e : Bytes × Bytes} (he : e ∈ (exported s).serialized) :
    e.1 ∈ heads [0x0b, 0x0d, 0x0e, 0x15, 0x16, 0x17] := by
  obtain ⟨pref, hpref, hp⟩ := List.any_eq_true.mp (mem_serialized.mp he).1
  obtain ⟨rest, hkey⟩ := List.isPrefixOf_iff_prefix.mp hp
  have hhead : ∀ pref ∈ serializedPrefixes,
      ∃ b ∈ ([0x0b, 0x0d, 0x0e, 0x15, 0x16, 0x17] : List UInt8), pref = [b] := by
    simp [serializedPrefixes]
  obtain ⟨b, hb, rfl⟩ := hhead pref hpref
  rw [← hkey]
  simpa using hb

theorem pointerCWCodeKey_injective : Function.Injective pointerCWCodeKey := by
  intro k k' h
  cases k <;> cases k' <;> simp [pointerCWCodeKey] at h <;> rfl

theorem storePointerCode_evm (k k' : Registry.CW) :
    (storePointerCode codeIDs v k').evm (pointerCWCodeKey k) = if k = k' then
      ((codeIDs k).map fun id => beBytes 8 id.toNat).or (v.evm (pointerCWCodeKey k))
      else v.evm (pointerCWCodeKey k) := by
  unfold storePointerCode
  by_cases e : k = k'
  · subst e
    cases codeIDs k with
    | none => simp
    | some id => simp
  · have hne := pointerCWCodeKey_injective.ne e
    cases codeIDs k' with
    | none => simp [e]
    | some id => simp [Patch.set_smul, hne, e]

end Exported

def Listable (v : Stores β γ) : Prop := ∃ s : SortedStore Bytes Bytes, Presents s v.evm

theorem Listable.smul (h : Listable v) {w : Writes β γ} (hw : w.evm.Finite) : Listable (w • v) :=
  hw v.evm h

theorem finite_setCode (k : Keepers β γ) (v : Stores β γ) (a : Address) (code : Bytes) :
    (setCode k v a code).writes.evm.Finite := by
  have hcode : (Patch.set (codeHashKey a) (k.keccak code).bytes * (Patch.set (codeSizeKey a)
      (beBytes 8 code.length) * Patch.set (codeKey a) code)).Finite :=
    (Patch.finite_set _ _).mul ((Patch.finite_set _ _).mul (Patch.finite_set _ _))
  unfold setCode
  dsimp only
  split
  · exact hcode
  · exact ((Patch.finite_set _ _).mul (Patch.finite_set _ _)).mul hcode

theorem finite_setState (a : Address) (key val : Hash) :
    (setState a key val : Effect β γ).writes.evm.Finite := by
  show (if val = emptyHash then Patch.delete _ else Patch.set _ _).Finite
  split
  · exact Patch.finite_delete _
  · exact Patch.finite_set _ _

theorem Listable.importState (h : Listable v) : Listable (importState env codeIDs v gs) := by
  refine ImportKeeps.importState ?_ h
  exact {
    coinbase := fun _ h => h.smul ((Patch.finite_set _ _).mul (Patch.finite_set _ _))
    pair := fun _ _ _ h => h.smul ((Patch.finite_set _ _).mul (Patch.finite_set _ _))
    pointerCode := fun _ _ _ h => h.smul (Patch.finite_set _ _)
    code := fun v c _ h => h.smul (finite_setCode _ v c.1 c.2)
    state := fun _ x _ h => h.smul (finite_setState x.1 x.2.1 x.2.2)
    nonce := fun _ _ _ h => h.smul (Patch.finite_set _ _)
    serialized := fun _ _ _ h => h.smul (Patch.finite_set _ _) }

end Tabi.Genesis
