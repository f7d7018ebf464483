import Tabi.Genesis.Reachable
import Tabi.Support.Dump

/-!
# Genesis — what is exported

The export of a reachable store returns, and the file is read back as the entries of the store
(`parse_export`): the texts of addresses are read as the addresses they were written for.
-/

namespace Tabi.Genesis

open Support StateDB

variable {β γ : Type}

section Entry

variable {J : DecJSON} {rest val : Bytes}

theorem Entry.of_tabiAddress (h : Entry J (0x01 :: rest) val) :
    ValidAddress val ∧ ∃ a : Address, rest = a.bytes := by
  generalize hkey : 0x01 :: rest = key at h
  cases h with
  | tabiAddress ht a => exact ⟨ht, a, List.tail_eq_of_cons_eq hkey⟩
  | plain hk => simp [← hkey, plainHeads] at hk
  | _ => simp [tabiAddressToEVMAddressKey, stateKey, codeKey, codeHashKey, codeSizeKey, nonceKey]
          at hkey

theorem Entry.of_state (h : Entry J (0x03 :: rest) val) :
    ∃ (a : Address) (key value : Hash), rest = a.bytes ++ key.bytes ∧ val = value.bytes ∧
      value ≠ emptyHash := by
  generalize hkey : 0x03 :: rest = key at h
  cases h with
  | state a key hval => exact ⟨a, key, _, List.tail_eq_of_cons_eq hkey, rfl, hval⟩
  | plain hk => simp [← hkey, plainHeads] at hk
  | _ => simp [evmAddressToTabiAddressKey, tabiAddressToEVMAddressKey, codeKey, codeHashKey,
          codeSizeKey, nonceKey] at hkey

theorem Entry.of_code (h : Entry J (0x07 :: rest) val) : ∃ a : Address, rest = a.bytes := by
  generalize hkey : 0x07 :: rest = key at h
  cases h with
  | code a => exact ⟨a, List.tail_eq_of_cons_eq hkey⟩
  | plain hk => simp [← hkey, plainHeads] at hk
  | _ => simp [evmAddressToTabiAddressKey, tabiAddressToEVMAddressKey, stateKey, codeHashKey,
          codeSizeKey, nonceKey] at hkey

theorem Entry.of_nonce (h : Entry J (0x0a :: rest) val) :
    ∃ (a : Address) (nonce : UInt64), rest = a.bytes ∧ val = beBytes 8 nonce.toNat := by
  generalize hkey : 0x0a :: rest = key at h
  cases h with
  | nonce a nonce => exact ⟨a, nonce, List.tail_eq_of_cons_eq hkey, rfl⟩
  | plain hk => simp [← hkey, plainHeads] at hk
  | _ => simp [evmAddressToTabiAddressKey, tabiAddressToEVMAddressKey, stateKey, codeKey,
          codeHashKey, codeSizeKey] at hkey

theorem Entry.of_cutoff (h : Entry J (0x1a :: rest) val) :
    ∃ height : Int64, val = beBytes 8 height.toUInt64.toNat := by
  generalize hkey : 0x1a :: rest = key at h
  cases h with
  | cutoff height => exact ⟨height, rfl⟩
  | plain hk => simp [← hkey, plainHeads] at hk
  | _ => simp [evmAddressToTabiAddressKey, tabiAddressToEVMAddressKey, stateKey, codeKey,
          codeHashKey, codeSizeKey, nonceKey] at hkey

end Entry

structure Texts.ReadBack (T : Texts) : Prop where
  bech32 : ∀ {t}, ValidAddress t → T.accAddressFromBech32 (T.string t) = some t
  hex : ∀ a, T.hexToAddress (T.hex a) = a

def decodeUint64 (bz : Bytes) : UInt64 := .ofNat (beNat (bz.take 8))

def exported (s : SortedStore Bytes Bytes) : Association.GenesisState where
  addressAssociations := (s.scan [0x01].isPrefixOf).map fun e => (e.2, .ofBytes 20 e.1.tail)
  codes := (s.scan [0x07].isPrefixOf).map fun e => (.ofBytes 20 e.1.tail, e.2)
  states := (s.scan [0x03].isPrefixOf).map fun e =>
    (.ofBytes 20 (e.1.tail.take 20), .ofBytes 32 (e.1.tail.drop 20), .ofBytes 32 e.2)
  nonces := (s.scan [0x0a].isPrefixOf).map fun e => (.ofBytes 20 e.1.tail, decodeUint64 e.2)
  serialized := serializedPrefixes.flatMap fun pref => s.scan pref.isPrefixOf

@[simp] theorem decodeUint64_beBytes (n : UInt64) : decodeUint64 (beBytes 8 n.toNat) = n := by
  have hlen : (beBytes 8 n.toNat).length ≤ 8 := by simp
  have hlt : n.toNat < 256 ^ 8 := n.toNat_lt
  rw [decodeUint64, List.take_of_length_le hlen, beNat_beBytes, Nat.mod_eq_of_lt hlt,
    UInt64.ofNat_toNat]

theorem uint64_beBytes (n : UInt64) : uint64 (beBytes 8 n.toNat) = .ok n := by
  have h := decodeUint64_beBytes n
  rw [decodeUint64] at h
  simp [uint64, h]

section Export

variable {J : DecJSON} {v : Stores β γ} {s : SortedStore Bytes Bytes} {T : Texts}

variable {e : Bytes × Bytes}

theorem mem_part {b : UInt8} :
    e ∈ s.scan [b].isPrefixOf ↔ s.get e.1 = some e.2 ∧ ∃ rest, e.1 = b :: rest := by
  have hhead : [b].isPrefixOf e.1 = true ↔ ∃ rest, e.1 = b :: rest := by
    rw [List.isPrefixOf_iff_prefix]
    exact ⟨fun ⟨rest, h⟩ => ⟨rest, h.symm⟩, fun ⟨rest, h⟩ => ⟨rest, h.symm⟩⟩
  rw [← hhead]
  exact SortedStore.mem_scan

theorem Shaped.of_mem (hv : Shaped J v) (hs : Presents s v.evm) {b : UInt8}
    (he : e ∈ s.scan [b].isPrefixOf) :
    ∃ rest, e.1 = b :: rest ∧ v.evm (b :: rest) = some e.2 ∧ Entry J (b :: rest) e.2 := by
  obtain ⟨hget, rest, hkey⟩ := mem_part.mp he
  rw [hs, hkey] at hget
  exact ⟨rest, hkey, hget, hv _ _ hget⟩

theorem iterate_part (b : UInt8) :
    iterate s [b] = (s.scan [b].isPrefixOf).map fun e => (e.1.tail, e.2) := by
  simp [iterate]

theorem exportStates_eq (hv : Shaped J v) (hs : Presents s v.evm) :
    exportStates T s = .ok ((s.scan [0x03].isPrefixOf).map fun e =>
      ⟨T.hex (.ofBytes 20 (e.1.tail.take 20)), (FixedBytes.ofBytes 32 (e.1.tail.drop 20)).bytes,
        (FixedBytes.ofBytes 32 e.2).bytes⟩) := by
  rw [exportStates, iterate_part, List.mapM_map]
  refine mapM_eq_ok fun e he => ?_
  obtain ⟨rest, hkey, -, hentry⟩ := hv.of_mem hs he
  obtain ⟨a, key, value, rfl, -, -⟩ := hentry.of_state
  simp [hkey, a.length_eq]

theorem exportNonces_eq (hv : Shaped J v) (hs : Presents s v.evm) :
    exportNonces T s = .ok ((s.scan [0x0a].isPrefixOf).map fun e =>
      ⟨T.hex (.ofBytes 20 e.1.tail), decodeUint64 e.2⟩) := by
  rw [exportNonces, iterate_part, List.mapM_map]
  refine mapM_eq_ok fun e he => ?_
  obtain ⟨rest, -, -, hentry⟩ := hv.of_mem hs he
  obtain ⟨a, nonce, rfl, hval⟩ := hentry.of_nonce
  simp [hval, uint64_beBytes]

theorem serialized_storeKey {pref : Bytes} (h : pref.isPrefixOf e.1 = true) :
    (Serialized.mk pref (e.1.drop pref.length) e.2).storeKey = e.1 := by
  obtain ⟨rest, hkey⟩ := List.isPrefixOf_iff_prefix.mp h
  rw [← hkey]
  cases rest with
  | nil => simp [Serialized.storeKey]
  | cons b rest => simp [Serialized.storeKey]

theorem exportSerialized_eq :
    (exportSerialized s).map (fun e => (e.storeKey, e.value)) = (exported s).serialized := by
  rw [exportSerialized, List.map_flatMap, exported]
  congr 1
  funext pref
  rw [iterate, List.map_map, List.map_map]
  refine (List.map_congr_left fun e he => ?_).trans (List.map_id _)
  exact Prod.ext (serialized_storeKey (List.mem_filter.mp he).2) rfl

theorem parse_export (hT : T.ReadBack) (hv : Shaped J v) (hs : Presents s v.evm) (p : Params) :
    ∃ g, exportGenesis T s p = .ok g ∧ g.params = p ∧ g.parse T = .ok (exported s) := by
  rw [exportGenesis, exportStates_eq hv hs, exportNonces_eq hv hs]
  refine ⟨_, rfl, rfl, ?_⟩
  have hpairs : ((s.scan [0x01].isPrefixOf).map fun e =>
        (⟨T.string e.2, T.hex (.ofBytes 20 e.1.tail)⟩ : AddressAssociation)).mapM
      (fun aa => do
        let tabiAddress ← Registry.mustAccAddressFromBech32 T.toBech32 aa.tabiAddress
        return (tabiAddress, T.hexToAddress aa.ethAddress)) =
      (.ok (exported s).addressAssociations : Outcome _) := by
    rw [List.mapM_map]
    refine mapM_eq_ok fun e he => ?_
    obtain ⟨rest, -, -, hentry⟩ := hv.of_mem hs he
    simp [Registry.mustAccAddressFromBech32, hT.bech32 hentry.of_tabiAddress.1, hT.hex]
  simp only [GenesisState.parse, exportAssociations, exportCodes, iterate_part, List.map_map,
    Function.comp_def] at hpairs ⊢
  rw [hpairs, exportSerialized_eq]
  simp [exported, hT.hex]

theorem dumps_associations (hv : Shaped J v) (hs : Presents s v.evm) :
    Dumps Prod.snd Prod.fst (exported s).addressAssociations (getTabiAddress v) := by
  refine dumps_scan evmAddressToTabiAddressKey (fun e he => ?_) fun a t hat => ?_
  · obtain ⟨rest, hkey, hbound, hentry⟩ := hv.of_mem hs he
    obtain ⟨-, a, rfl⟩ := hentry.of_tabiAddress
    simpa [getTabiAddress, evmAddressToTabiAddressKey, hkey] using hbound
  · exact ⟨t, mem_part.mpr ⟨(hs _).trans hat, a.bytes, rfl⟩, FixedBytes.ofBytes_bytes a, rfl⟩

theorem dumps_codes (hv : Shaped J v) (hs : Presents s v.evm) :
    Dumps Prod.fst Prod.snd (exported s).codes fun a => v.evm (codeKey a) := by
  refine dumps_scan codeKey (fun e he => ?_) fun a code hcode => ?_
  · obtain ⟨rest, hkey, hbound, hentry⟩ := hv.of_mem hs he
    obtain ⟨a, rfl⟩ := hentry.of_code
    simpa [codeKey, hkey] using hbound
  · exact ⟨code, mem_part.mpr ⟨(hs _).trans hcode, a.bytes, rfl⟩, FixedBytes.ofBytes_bytes a, rfl⟩

theorem dumps_states (hv : Shaped J v) (hs : Presents s v.evm) :
    Dumps (fun x : Address × Hash × Hash => (x.1, x.2.1)) (fun x => x.2.2.bytes) (exported s).states
      fun i => v.evm (stateKey i.1 ++ i.2.bytes) := by
  refine dumps_scan (fun i => stateKey i.1 ++ i.2.bytes) (fun e he => ?_) fun i val hval => ?_
  · obtain ⟨rest, hkey, hbound, hentry⟩ := hv.of_mem hs he
    obtain ⟨a, key, value, rfl, hvalue, -⟩ := hentry.of_state
    simpa [stateKey, hkey, hvalue, ← a.length_eq] using hbound
  · obtain ⟨a, key⟩ := i
    have hmem : (stateKey a ++ key.bytes, val) ∈ s.scan [0x03].isPrefixOf :=
      mem_part.mpr ⟨(hs _).trans hval, a.bytes ++ key.bytes, rfl⟩
    obtain ⟨_, _, hvalue, _, rfl, -⟩ := (hv _ _ hval).of_state
    refine ⟨_, hmem, ?_, ?_⟩
    · simp [stateKey, ← a.length_eq]
    · simp

theorem exported_states_ne (hv : Shaped J v) (hs : Presents s v.evm) :
    ∀ x ∈ (exported s).states, x.2.2 ≠ emptyHash := by
  intro x hx
  obtain ⟨e, he, rfl⟩ := List.mem_map.mp hx
  obtain ⟨rest, -, -, hentry⟩ := hv.of_mem hs he
  obtain ⟨_, _, value, -, hvalue, hne⟩ := hentry.of_state
  simpa [hvalue] using hne

theorem dumps_nonces (hv : Shaped J v) (hs : Presents s v.evm) :
    Dumps Prod.fst (fun x : Address × UInt64 => beBytes 8 x.2.toNat) (exported s).nonces
      fun a => v.evm (nonceKey a) := by
  refine dumps_scan nonceKey (fun e he => ?_) fun a val hval => ?_
  · obtain ⟨rest, hkey, hbound, hentry⟩ := hv.of_mem hs he
    obtain ⟨a, nonce, rfl, hnonce⟩ := hentry.of_nonce
    simpa [nonceKey, hkey, hnonce] using hbound
  · have hmem : (nonceKey a, val) ∈ s.scan [0x0a].isPrefixOf :=
      mem_part.mpr ⟨(hs _).trans hval, a.bytes, rfl⟩
    obtain ⟨_, nonce, _, rfl⟩ := (hv _ _ hval).of_nonce
    refine ⟨_, hmem, FixedBytes.ofBytes_bytes a, ?_⟩
    simp

def copied (m : Store Bytes Bytes) (key : Bytes) : Option Bytes :=
  if serializedPrefixes.any (·.isPrefixOf key) = true then m key else none

theorem mem_serialized : e ∈ (exported s).serialized ↔
    serializedPrefixes.any (·.isPrefixOf e.1) = true ∧ s.get e.1 = some e.2 := by
  obtain ⟨key, val⟩ := e
  simp only [exported, List.mem_flatMap, SortedStore.mem_scan, List.any_eq_true]
  exact ⟨fun ⟨pref, hmem, hget, hp⟩ => ⟨⟨pref, hmem, hp⟩, hget⟩,
    fun ⟨⟨pref, hmem, hp⟩, hget⟩ => ⟨pref, hmem, hget, hp⟩⟩

theorem dumps_serialized (hs : Presents s v.evm) :
    Dumps Prod.fst Prod.snd (exported s).serialized (copied v.evm) := by
  intro key val
  rw [copied, Option.ite_none_right_eq_some, ← hs key]
  constructor
  · intro h
    exact ⟨(key, val), mem_serialized.mpr h, rfl, rfl⟩
  · rintro ⟨e, he, rfl, rfl⟩
    exact mem_serialized.mp he

end Export

end Tabi.Genesis
