import Tabi.Genesis.RoundTrip
import Tabi.Genesis.Stream

/-!
# Genesis — pieces against the file

The last piece of a stream has entries of the reverse registry only, and reading it in associates
the coinbase and uploads the codes of the pointers once more.
-/

namespace Tabi.Genesis

open Support StateDB

variable {β γ : Type} {env : Env β γ} {codeIDs : Registry.CW → Option UInt64} {v : Stores β γ}
  {gs : Association.GenesisState} {key : Bytes}

theorem importState_readSerialized {last : List Serialized} (hlast : ∀ e ∈ last, e.pref = [0x17])
    (hkey : key ∉ heads [0x17]) :
    (importState env codeIDs v (readSerialized last)).evm key =
      (storePointerCodes codeIDs (Association.mapAddress env.keepers v
        env.keepers.feeCollectorModuleAddress env.coinbase)).evm key := by
  refine foldl_frame (fun v : Stores β γ => v.evm key) (fun v e he => ?_) _
  obtain ⟨e, hmem, rfl⟩ := List.mem_map.mp he
  have hhead : e.storeKey ∈ heads [0x17] := by
    rw [Serialized.storeKey, hlast e hmem]
    split <;> simp
  exact evm_of_within (Patch.within_set hhead e.value) hkey v

theorem storePointerCodes_pointerCode (k : Registry.CW) :
    (storePointerCodes codeIDs v).evm (pointerCWCodeKey k) =
      ((codeIDs k).map fun id => beBytes 8 id.toNat).or (v.evm (pointerCWCodeKey k)) := by
  cases k <;> simp [storePointerCodes, storePointerCode_evm]

section Last

variable {last : List Serialized}

theorem lastPiece_coinbase (hlast : ∀ e ∈ last, e.pref = [0x17]) :
    (importState env codeIDs v (readSerialized last)).evm
      (evmAddressToTabiAddressKey env.coinbase) =
        some env.keepers.feeCollectorModuleAddress := by
  rw [importState_readSerialized hlast (by simp [evmAddressToTabiAddressKey]),
    storePointerCodes_evm (by simp [evmAddressToTabiAddressKey])]
  show getTabiAddress _ env.coinbase = _
  rw [Association.getTabiAddress_mapAddress, Function.update_self]

theorem lastPiece_feeCollector (hlast : ∀ e ∈ last, e.pref = [0x17]) :
    (importState env codeIDs v (readSerialized last)).evm
      (tabiAddressToEVMAddressKey env.keepers.feeCollectorModuleAddress) =
        some env.coinbase.bytes := by
  rw [importState_readSerialized hlast (by simp [tabiAddressToEVMAddressKey]),
    storePointerCodes_evm (by simp [tabiAddressToEVMAddressKey]), Association.mapAddress_evm,
    Patch.set_smul_same]

theorem lastPiece_pointerCode (hlast : ∀ e ∈ last, e.pref = [0x17]) {k : Registry.CW} {id : UInt64}
    (hid : codeIDs k = some id) :
    (importState env codeIDs v (readSerialized last)).evm (pointerCWCodeKey k) =
      some (beBytes 8 id.toNat) := by
  rw [importState_readSerialized hlast (by simp [pointerCWCodeKey]), storePointerCodes_pointerCode,
    hid]
  rfl

end Last

section Plain

theorem importState_associations (hgs : ∀ e ∈ gs.serialized, e.1 ∉ heads [0x01, 0x02])
    (hkey : key ∈ heads [0x01, 0x02]) :
    (importState env codeIDs v gs).evm key = (coded env codeIDs v gs).evm key := by
  have hentries : ∀ v : Stores β γ, (gs.serialized.foldl
      (fun v e => (Writes.ofEvm (Patch.set e.1 e.2) : Writes β γ) • v) v).evm key = v.evm key :=
    foldl_frame (fun v : Stores β γ => v.evm key) fun v e he =>
      Patch.set_smul_other (fun h : key = e.1 => hgs e he (h ▸ hkey)) e.2 v.evm
  have hother : ∀ {b : UInt8}, b ≠ 0x01 → b ≠ 0x02 → key ∉ heads [b] := by
    rintro b h₁ h₂ ⟨b', hb', hhead⟩
    obtain ⟨c, hc, hkey⟩ := hkey
    cases hhead.symm.trans hkey
    simp only [List.mem_cons, List.not_mem_nil, or_false] at hb' hc
    rcases hc with rfl | rfl
    · exact h₁ hb'.symm
    · exact h₂ hb'.symm
  exact (hentries _).trans ((setNonces_evm (hother (by decide) (by decide))).trans
    (setStates_evm (hother (by decide) (by decide))))

theorem getTabiAddress_associated_last (a : Address) :
    getTabiAddress (associated env codeIDs v gs) a =
      (((gs.addressAssociations.filter fun aa => aa.2 = a).getLast?).map Prod.fst).or
        (if a = env.coinbase then some env.keepers.feeCollectorModuleAddress
          else getTabiAddress v a) := by
  rw [associated, Association.mapAll, (enters_tabiAddresses _).foldl_last, keeperInitGenesis,
    getTabiAddress_storePointerCodes, Association.mapAll, (enters_tabiAddresses _).foldl_last,
    Association.getTabiAddress_mapAddress, Function.update_apply, ← Option.or_assoc, Option.or_self]

theorem associated_ne_none_iff (a : Address) :
    getTabiAddress (associated env codeIDs v gs) a ≠ none ↔
      a = env.coinbase ∨ a ∈ gs.addressAssociations.map Prod.snd ∨ getTabiAddress v a ≠ none := by
  rw [getTabiAddress_associated_last, Ne, Option.or_eq_none_iff, Option.map_eq_none_iff,
    List.getLast?_eq_none_iff, List.filter_eq_nil_iff]
  by_cases e : a = env.coinbase
  · simp [e]
  · simp [e, imp_iff_not_or, or_comm]

theorem enters_backEntries (l : List (AccAddress × Address)) :
    Enters (fun v aa => Association.mapAddress env.keepers v aa.1 aa.2)
      (fun (v : Stores β γ) t => v.evm (tabiAddressToEVMAddressKey t)) Prod.fst
      (fun aa => aa.2.bytes) l := by
  refine enters_of_set (fun t t' e => List.tail_eq_of_cons_eq e) fun v aa _ t => ?_
  show (Association.mapAddress env.keepers v aa.1 aa.2).evm (tabiAddressToEVMAddressKey t) = _
  rw [Association.mapAddress_evm, Patch.set_smul, Patch.set_smul_other]
  simp [tabiAddressToEVMAddressKey, evmAddressToTabiAddressKey]

theorem associated_feeCollector :
    (associated env codeIDs v gs).evm
        (tabiAddressToEVMAddressKey env.keepers.feeCollectorModuleAddress) =
      (((gs.addressAssociations.filter fun aa =>
        aa.1 = env.keepers.feeCollectorModuleAddress).getLast?).map fun aa => aa.2.bytes).or
        (some env.coinbase.bytes) := by
  have hcodes : ∀ v : Stores β γ, (storePointerCodes codeIDs v).evm
      (tabiAddressToEVMAddressKey env.keepers.feeCollectorModuleAddress) =
        v.evm (tabiAddressToEVMAddressKey env.keepers.feeCollectorModuleAddress) :=
    fun v => storePointerCodes_evm (by simp [tabiAddressToEVMAddressKey])
  rw [associated, Association.mapAll, (enters_backEntries _).foldl_last, keeperInitGenesis, hcodes,
    Association.mapAll, (enters_backEntries _).foldl_last, Association.mapAddress_evm,
    Patch.set_smul_same, ← Option.or_assoc, Option.or_self]

theorem codes_back_iff {l : List (Address × Bytes)} {v : Stores β γ} {t : AccAddress} {a : Address}
    (ha : getTabiAddress v a ≠ none) :
    (l.foldl (fun v c => Association.setContractCode env.keepers v c.1 c.2) v).evm
        (tabiAddressToEVMAddressKey t) = some a.bytes ↔
      v.evm (tabiAddressToEVMAddressKey t) = some a.bytes ∧
        ∀ c ∈ l, c.1.bytes = t → getTabiAddress v c.1 ≠ none := by
  induction l generalizing v with
  | nil => simp
  | cons c l ih =>
    have ha' : getTabiAddress (Association.setContractCode env.keepers v c.1 c.2) a ≠ none :=
      getTabiAddress_write_ne_none ha (.code c.1 c.2)
    rw [List.foldl_cons, ih ha', List.forall_mem_cons, Association.setContractCode,
      setCode_evm_back]
    by_cases hc : getTabiAddress v c.1 = none
    · by_cases e : t = c.1.bytes
      · -- The code takes the entry.
        have hne : c.1.bytes ≠ a.bytes := fun h => ha (FixedBytes.ext h ▸ hc)
        simp [hc, e, hne]
      · have hother : ∀ x : Address × Bytes, x.1.bytes = t →
            getTabiAddress ((setCode env.keepers.toKeepers v c.1 c.2).writes • v) x.1 =
              getTabiAddress v x.1 := by
          intro x hx
          have hne : x.1 ≠ c.1 := fun h => e (hx.symm.trans (congrArg FixedBytes.bytes h))
          rw [getTabiAddress_setCode_or, if_neg hne, Option.or_none]
        rw [if_neg fun h => e h.2]
        refine and_congr_right fun _ => ?_
        rw [and_iff_right fun h : c.1.bytes = t => absurd h.symm e]
        refine forall₂_congr fun x _ => ?_
        refine forall_congr' fun hx => ?_
        rw [hother x hx]
    · rw [if_neg fun h => hc h.1]
      refine and_congr_right fun _ => ?_
      rw [and_iff_right fun _ => hc]
      simp only [getTabiAddress_setCode hc]

structure Undisturbed (env : Env β γ) (v : Stores β γ) (gs : Association.GenesisState) : Prop where
  coinbase : ∀ aa ∈ (gs.addressAssociations.filter fun aa => aa.2 = env.coinbase).getLast?,
    aa.1 = env.keepers.feeCollectorModuleAddress
  feeCollector : ∀ aa ∈ (gs.addressAssociations.filter fun aa =>
    aa.1 = env.keepers.feeCollectorModuleAddress).getLast?, aa.2 = env.coinbase
  codes : ∀ c ∈ gs.codes, c.1.bytes = env.keepers.feeCollectorModuleAddress →
    c.1 = env.coinbase ∨ c.1 ∈ gs.addressAssociations.map Prod.snd ∨ getTabiAddress v c.1 ≠ none

theorem undisturbed_iff (codeIDs : Registry.CW → Option UInt64)
    (hgs : ∀ e ∈ gs.serialized, e.1 ∉ heads [0x01, 0x02]) :
    (importState env codeIDs v gs).evm (evmAddressToTabiAddressKey env.coinbase) =
          some env.keepers.feeCollectorModuleAddress ∧
        (importState env codeIDs v gs).evm
            (tabiAddressToEVMAddressKey env.keepers.feeCollectorModuleAddress) =
          some env.coinbase.bytes ↔
      Undisturbed env v gs := by
  have hlast : ∀ {α ρ : Type} {o : Option α} {f : α → ρ} {r : ρ},
      (o.map f).or (some r) = some r ↔ ∀ x ∈ o, f x = r := by
    intro α ρ o f r
    cases o <;> simp
  have hassoc : getTabiAddress (associated env codeIDs v gs) env.coinbase ≠ none :=
    (associated_ne_none_iff _).mpr (.inl rfl)
  have hcoinbase : (coded env codeIDs v gs).evm (evmAddressToTabiAddressKey env.coinbase) =
      getTabiAddress (associated env codeIDs v gs) env.coinbase := by
    obtain ⟨t, ht⟩ := Option.ne_none_iff_exists'.mp hassoc
    show getTabiAddress (coded env codeIDs v gs) env.coinbase = _
    rw [coded, getTabiAddress_codes, ht, Option.some_or]
  rw [importState_associations hgs (by simp [evmAddressToTabiAddressKey]),
    importState_associations hgs (by simp [tabiAddressToEVMAddressKey]), hcoinbase,
    getTabiAddress_associated_last, if_pos rfl, hlast, coded, codes_back_iff hassoc,
    associated_feeCollector, hlast]
  simp only [associated_ne_none_iff, ← FixedBytes.ext_iff]
  constructor
  · rintro ⟨hcoinbase, hcollector, hcodes⟩
    exact ⟨hcoinbase, hcollector, hcodes⟩
  · intro h
    exact ⟨h.coinbase, h.feeCollector, h.codes⟩

theorem importState_pointerCode_of_exported {s : SortedStore Bytes Bytes}
    (hgs : gs.serialized = (exported s).serialized) {k : Registry.CW} {id : UInt64}
    (hid : codeIDs k = some id) :
    (importState env codeIDs v gs).evm (pointerCWCodeKey k) =
      (s.get (pointerCWCodeKey k)).or (some (beBytes 8 id.toNat)) := by
  have hkey : ∀ {bs : List UInt8}, 0x16 ∉ bs → pointerCWCodeKey k ∉ heads bs := by
    intro bs h
    simpa [pointerCWCodeKey] using h
  have hcopied : copied s.get (pointerCWCodeKey k) = s.get (pointerCWCodeKey k) := by
    simp [copied, serializedPrefixes, pointerCWCodeKey]
  have hdump : Dumps Prod.fst Prod.snd gs.serialized (copied s.get) := by
    rw [hgs]
    exact dumps_serialized (v := { v with evm := s.get }) fun _ => rfl
  refine ((enters_serialized _).foldl_dump hdump _ _).trans ?_
  have hcoded : (coded env codeIDs v gs).evm (pointerCWCodeKey k) = some (beBytes 8 id.toNat) := by
    rw [coded_evm_associated (hkey (by decide)), associated, mapAll_evm (hkey (by decide)),
      keeperInitGenesis, storePointerCodes_pointerCode, hid]
    rfl
  rw [hcopied, setNonces_evm (hkey (by decide)), setStates_evm (hkey (by decide))]
  exact congrArg _ hcoded

end Plain

theorem beBytes_uint64_injective : Function.Injective fun n : UInt64 => beBytes 8 n.toNat :=
  Function.LeftInverse.injective decodeUint64_beBytes

variable {g : GenesisState} {s : SortedStore Bytes Bytes} {params : Params}

theorem serialized_of_parse {T : Texts} (h : g.parse T = .ok gs) :
    gs.serialized = g.serialized.map fun e => (e.storeKey, e.value) := by
  obtain ⟨pairs, -, h⟩ := bind_eq_ok.mp h
  cases h
  rfl

theorem exportGenesis_serialized {T : Texts} (h : exportGenesis T s params = .ok g) :
    g.serialized = exportSerialized s := by
  obtain ⟨states, -, h⟩ := bind_eq_ok.mp h
  obtain ⟨nonces, -, h⟩ := bind_eq_ok.mp h
  cases h
  rfl

theorem importStream_eq_iff {init : List Association.GenesisState} {last : List Serialized}
    (hgs : gs.serialized = (exported s).serialized)
    (hrecords : (init ++ [readSerialized last]).flatMap records = records gs)
    (hlast : ∀ e ∈ last, e.pref = [0x17]) (codeIDs : ℕ → Registry.CW → UInt64)
    (first : Registry.CW → UInt64) :
    (importStream env (fun i k => some (codeIDs i k)) v (init ++ [readSerialized last])).evm =
        (importState env (fun k => some (first k)) v gs).evm ↔
      Undisturbed env v gs ∧ ∀ k, (s.get (pointerCWCodeKey k)).or
        (some (beBytes 8 (first k).toNat)) = some (beBytes 8 (codeIDs init.length k).toNat) := by
  have hagree : Patch.AgreeOff (initial env)
      (importStream env (fun i k => some (codeIDs i k)) v (init ++ [readSerialized last])).evm
      (importState env (fun k => some (first k)) v gs).evm :=
    importStream_agreeOff_importState hrecords v _ _
  have hstream : importStream env (fun i k => some (codeIDs i k)) v
      (init ++ [readSerialized last]) = importState env (fun k => some (codeIDs init.length k))
        (importStream env (fun i k => some (codeIDs i k)) v init) (readSerialized last) := by
    rw [importStream_append]
    simp only [importStream, Nat.zero_add]
  have hheads : ∀ e ∈ gs.serialized, e.1 ∉ heads [0x01, 0x02] := by
    rw [hgs]
    rintro e he ⟨b, hb, hhead⟩
    obtain ⟨b', hb', hhead'⟩ := serialized_mem_heads he
    cases hhead.symm.trans hhead'
    revert hb hb'
    simp only [List.mem_cons, List.not_mem_nil, or_false]
    rintro (rfl | rfl) <;> decide
  have hcode : ∀ k, (importState env (fun k => some (first k)) v gs).evm (pointerCWCodeKey k) =
      (s.get (pointerCWCodeKey k)).or (some (beBytes 8 (first k).toNat)) :=
    fun k => importState_pointerCode_of_exported hgs rfl
  rw [hstream] at hagree ⊢
  simp only [← hcode]
  constructor
  · intro h
    refine ⟨(undisturbed_iff (fun k => some (first k)) hheads).mp ⟨?_, ?_⟩, fun k => ?_⟩
    · rw [← h, lastPiece_coinbase hlast]
    · rw [← h, lastPiece_feeCollector hlast]
    · rw [← h, lastPiece_pointerCode hlast rfl]
  · rintro ⟨htables, hcodes⟩
    obtain ⟨hcoinbase, hfeeCollector⟩ :=
      (undisturbed_iff (fun k => some (first k)) hheads).mpr htables
    funext key
    by_cases hkey : key ∈ initial env
    · rcases hkey with rfl | rfl | ⟨k, rfl⟩
      · rw [lastPiece_coinbase hlast, hcoinbase]
      · rw [lastPiece_feeCollector hlast, hfeeCollector]
      · rw [lastPiece_pointerCode hlast rfl, hcodes k]
    · exact hagree key hkey

structure Sent (env : Env β γ) (s : SortedStore Bytes Bytes) (params : Params) (g : GenesisState)
    (gs : Association.GenesisState) (chunks : List GenesisState) where
  init : List Association.GenesisState
  last : List Serialized
  parse : g.parse env.texts = .ok gs
  stream : exportGenesisStream env.texts s params = .ok chunks
  length : chunks.length = init.length + 1
  pos : 0 < init.length
  serialized : gs.serialized = (exported s).serialized
  records : (init ++ [readSerialized last]).flatMap records = records gs
  registry : ∀ e ∈ last, e.pref = [0x17]
  imported : ∀ (codeIDs : ℕ → Registry.CW → Option UInt64) (v : Stores β γ),
    initGenesisStream env codeIDs v chunks =
      .ok (importStream env codeIDs v (init ++ [readSerialized last]))

theorem initGenesis_eq {p : Params} (hparams : setParams g.params = .ok p)
    (hparse : g.parse env.texts = .ok gs) (codeIDs : Registry.CW → Option UInt64) (v : Stores β γ) :
    initGenesis env codeIDs v g = .ok (p, importState env codeIDs v gs) := by
  rw [initGenesis, hparams, hparse]
  rfl

theorem exists_sent {p : Params} (hexport : exportGenesis env.texts s params = .ok g)
    (hparams : setParams g.params = .ok p) (hparse : g.parse env.texts = .ok gs) :
    ∃ chunks, Nonempty (Sent env s params g gs chunks) := by
  obtain ⟨sent, last, hstream, hflat, hlast⟩ := exportGenesisStream_eq hexport
  have hpieces := parse_pieces hparse (sent ++ [last])
  have hsplit : readPieces gs (sent ++ [last]) = readPieces gs sent ++ [readSerialized last] := by
    simp [readPieces]
  have hvalid : ∀ piece ∈ g.pieces (sent ++ [last]), ∃ p, setParams piece.params = .ok p :=
    fun piece hpiece => ⟨p, (congrArg setParams (mem_pieces_params hpiece)).trans hparams⟩
  have hrecords : (readPieces gs (sent ++ [last])).flatMap records = records gs := by
    refine flatMap_records_readPieces ?_
    rw [hflat, serialized_of_parse hparse]
  have hserialized : gs.serialized = (exported s).serialized := by
    rw [serialized_of_parse hparse, exportGenesis_serialized hexport, exportSerialized_eq]
  rw [hsplit] at hpieces hrecords
  exact ⟨_, ⟨{
    init := readPieces gs sent
    last := last
    parse := hparse
    stream := hstream
    length := by
      rw [← length_of_mapM hpieces]
      simp
    pos := by simp [readPieces]
    serialized := hserialized
    records := hrecords
    registry := hlast
    imported := fun codeIDs v => initGenesisStream_eq hpieces hvalid codeIDs v }⟩⟩

theorem Sent.pointerCode {chunks : List GenesisState} (h : Sent env s params g gs chunks)
    (codeIDs : ℕ → Registry.CW → UInt64) (k : Registry.CW) :
    (importStream env (fun i k => some (codeIDs i k)) v (h.init ++ [readSerialized h.last])).evm
      (pointerCWCodeKey k) = some (beBytes 8 (codeIDs (chunks.length - 1) k).toNat) := by
  rw [importStream_append, h.length, Nat.add_sub_cancel]
  simp only [importStream, Nat.zero_add]
  exact lastPiece_pointerCode h.registry rfl

/-- **In pieces or at once.**  If the plain export of a store returns and is read in, so are the
pieces of the stream.  When each upload returns a new code id, the two leave the same EVM store
exactly when the exported one had the code ids of the uploads of the last piece, and neither the
coinbase nor the fee collector gets another association. -/
theorem streamed_iff {s : SortedStore Bytes Bytes} {params p : Params} {g : GenesisState}
    {v v₁ : Stores β γ} (codeIDs : ℕ → Registry.CW → UInt64)
    (hexport : exportGenesis env.texts s params = .ok g)
    (himport : initGenesis env (fun k => some (codeIDs 0 k)) v g = .ok (p, v₁)) :
    ∃ gs chunks v₂, g.parse env.texts = .ok gs ∧
      exportGenesisStream env.texts s params = .ok chunks ∧
      initGenesisStream env (fun i k => some (codeIDs i k)) v chunks = .ok v₂ ∧
      (Set.InjOn (fun u : ℕ × Registry.CW => codeIDs u.1 u.2) {u | u.1 < chunks.length} →
        (v₂.evm = v₁.evm ↔ Undisturbed env v gs ∧ ∀ k, s.get (pointerCWCodeKey k) =
          some (beBytes 8 (codeIDs (chunks.length - 1) k).toNat))) := by
  obtain ⟨p', hparams, himport⟩ := bind_eq_ok.mp himport
  obtain ⟨gs, hparse, himport⟩ := bind_eq_ok.mp himport
  cases himport
  obtain ⟨chunks, ⟨h⟩⟩ := exists_sent hexport hparams hparse
  refine ⟨gs, chunks, _, hparse, h.stream, h.imported _ _, fun hnew => ?_⟩
  rw [importStream_eq_iff h.serialized h.records h.registry, h.length, Nat.add_sub_cancel]
  refine and_congr_right fun _ => forall_congr' fun k => ?_
  -- The code id of the plain import is not the one of the last piece.
  have hne : beBytes 8 (codeIDs 0 k).toNat ≠ beBytes 8 (codeIDs h.init.length k).toNat := by
    intro heq
    have hlength := h.length
    have hsame : (0, k) = (h.init.length, k) := by
      refine hnew ?_ ?_ (beBytes_uint64_injective heq)
      · show 0 < chunks.length
        omega
      · show h.init.length < chunks.length
        omega
    exact h.pos.ne (congrArg Prod.fst hsame)
  cases s.get (pointerCWCodeKey k) with
  | none => simpa using hne
  | some bz => rfl

def uploads (i : ℕ) (k : Registry.CW) : UInt64 :=
  match k with
  | .erc20 => .ofNat (3 * i + 1)
  | .erc721 => .ofNat (3 * i + 2)
  | .erc1155 => .ofNat (3 * i + 3)

def started (i : ℕ) : SortedStore Bytes Bytes :=
  [Registry.CW.erc20, .erc721, .erc1155].foldl
    (fun s k => s.set (pointerCWCodeKey k) (beBytes 8 (uploads i k).toNat)) fresh.entries

theorem uploads_injOn : Set.InjOn (fun u : ℕ × Registry.CW => uploads u.1 u.2) {u | u.1 < 8} := by
  have hall : ∀ i < 8, ∀ j < 8, ∀ k ∈ [Registry.CW.erc20, .erc721, .erc1155],
      ∀ k' ∈ [Registry.CW.erc20, .erc721, .erc1155],
        uploads i k = uploads j k' → i = j ∧ k = k' := by
    decide +kernel
  have hmem : ∀ k, k ∈ [Registry.CW.erc20, .erc721, .erc1155] := by
    intro k
    cases k <;> simp
  rintro ⟨i, k⟩ hi ⟨j, k'⟩ hj h
  obtain ⟨rfl, rfl⟩ := hall i hi j hj k (hmem k) k' (hmem k') h
  rfl

theorem started_files {i : ℕ} (hi : i = 0 ∨ i = 7) :
    ∃ g gs chunks, exportGenesis plainEnv.texts (started i) fresh.params = .ok g ∧
      setParams g.params = .ok fresh.params ∧ g.parse plainEnv.texts = .ok gs ∧
      gs.addressAssociations = [([0xfc], Association.coinbaseAddr)] ∧ gs.codes = [] ∧
      exportGenesisStream plainEnv.texts (started i) fresh.params = .ok chunks ∧
      chunks.length = 8 := by
  rcases hi with rfl | rfl
  · exact ⟨_, _, _, rfl, rfl, rfl, rfl, rfl, rfl, rfl⟩
  · exact ⟨_, _, _, rfl, rfl, rfl, rfl, rfl, rfl, rfl⟩

theorem streamed_coincidence :
    ∃ g p v₁ chunks v₂, exportGenesis plainEnv.texts (started 7) fresh.params = .ok g ∧
      initGenesis plainEnv (fun k => some (uploads 0 k)) Association.noStores g = .ok (p, v₁) ∧
      exportGenesisStream plainEnv.texts (started 7) fresh.params = .ok chunks ∧
      initGenesisStream plainEnv (fun i k => some (uploads i k)) Association.noStores chunks =
        .ok v₂ ∧ v₂.evm = v₁.evm := by
  obtain ⟨g, gs, chunks, hexport, hparams, hparse, hpairs, hcodes, hchunks, hlength⟩ :=
    started_files (.inr rfl)
  have himport := initGenesis_eq hparams hparse (fun k => some (uploads 0 k)) Association.noStores
  obtain ⟨gs', chunks', v₂, hparse', hchunks', hstream, hiff⟩ :=
    streamed_iff uploads hexport himport
  cases hparse.symm.trans hparse'
  cases hchunks.symm.trans hchunks'
  rw [hlength] at hiff
  refine ⟨g, _, _, chunks, v₂, hexport, himport, hchunks, hstream, (hiff uploads_injOn).mpr
    ⟨⟨?_, ?_, ?_⟩, fun k => ?_⟩⟩
  · rw [hpairs]
    decide
  · rw [hpairs]
    decide
  · rw [hcodes]
    exact List.forall_mem_nil _
  · cases k <;> rfl

theorem streamed_replaces_codeIDs :
    ∃ g p v₁ chunks v₂, exportGenesis plainEnv.texts (started 0) fresh.params = .ok g ∧
      initGenesis plainEnv (fun k => some (uploads 0 k)) Association.noStores g = .ok (p, v₁) ∧
      exportGenesisStream plainEnv.texts (started 0) fresh.params = .ok chunks ∧
      initGenesisStream plainEnv (fun i k => some (uploads i k)) Association.noStores chunks =
        .ok v₂ ∧
      Set.InjOn (fun u : ℕ × Registry.CW => uploads u.1 u.2) {u | u.1 < chunks.length} ∧
      getStoredPointerCodeID v₁ .erc20 = .ok 1 ∧ getStoredPointerCodeID v₂ .erc20 = .ok 22 ∧
      v₂.evm ≠ v₁.evm := by
  obtain ⟨g, gs, chunks, hexport, hparams, hparse, hpairs, hcodes, hchunks, hlength⟩ :=
    started_files (.inl rfl)
  obtain ⟨chunks', ⟨h⟩⟩ := exists_sent hexport hparams hparse
  cases hchunks.symm.trans h.stream
  have hplain : (importState plainEnv (fun k => some (uploads 0 k)) Association.noStores gs).evm
      (pointerCWCodeKey .erc20) = some (beBytes 8 1) :=
    importState_pointerCode_of_exported h.serialized rfl
  have hstreamed : (importStream plainEnv (fun i k => some (uploads i k)) Association.noStores
      (h.init ++ [readSerialized h.last])).evm (pointerCWCodeKey .erc20) =
        some (beBytes 8 22) := by
    rw [h.pointerCode, hlength]
    rfl
  refine ⟨g, _, _, chunks, _, hexport, initGenesis_eq hparams hparse _ _, hchunks, h.imported _ _,
    ?_, ?_, ?_, ?_⟩
  · rw [hlength]
    exact uploads_injOn
  · rw [getStoredPointerCodeID, hplain]
    rfl
  · rw [getStoredPointerCodeID, hstreamed]
    rfl
  · intro heq
    rw [heq, hplain] at hstreamed
    cases hstreamed

end Tabi.Genesis
