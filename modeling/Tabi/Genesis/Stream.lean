import Tabi.Genesis.Import

/-!
# Genesis — export in chunks

`ExportGenesisStream` (`x/evm/genesis.go`) sends what `ExportGenesis` returns in pieces: the
parameters, one state for each association, code, slot and nonce, and then, for each of the copied
prefixes, states with up to 1001 entries and one with the rest, which may be empty.
-/

namespace Tabi.Genesis

open Support StateDB

variable {β γ : Type}

def genesisExportStreamSerializedLenMax : ℕ := 1000

def GenesisState.ofParams (params : Params) : GenesisState := ⟨params, [], [], [], [], []⟩

def streamEntry (params : Params) (st : List GenesisState × GenesisState) (e : Serialized) :
    List GenesisState × GenesisState :=
  let genesis := { st.2 with serialized := st.2.serialized ++ [e] }
  if genesis.serialized.length > genesisExportStreamSerializedLenMax then
    (st.1 ++ [genesis], .ofParams params)
  else (st.1, genesis)

def streamEntries (params : Params) (l : List Serialized) : List GenesisState :=
  let st := l.foldl (streamEntry params) ([], .ofParams params)
  st.1 ++ [st.2]

section Export

variable (T : Texts) (s : SortedStore Bytes Bytes)

def exportGenesisStream (params : Params) : Outcome (List GenesisState) := do
  let states ← exportStates T s
  let nonces ← exportNonces T s
  return [GenesisState.ofParams params] ++
    (exportAssociations T s).map (fun aa => { GenesisState.ofParams params with
      addressAssociations := [aa] }) ++
    (exportCodes T s).map (fun c => { GenesisState.ofParams params with codes := [c] }) ++
    states.map (fun x => { GenesisState.ofParams params with states := [x] }) ++
    nonces.map (fun n => { GenesisState.ofParams params with nonces := [n] }) ++
    serializedPrefixes.flatMap fun pref =>
      streamEntries params ((iterate s pref).map fun e => ⟨pref, e.1, e.2⟩)

end Export

section Import

variable (env : Env β γ)

/-- `InitGenesis` for each state; `codeIDs i` is what the uploads of the `i`-th return. -/
def initGenesisStream (codeIDs : ℕ → Registry.CW → Option UInt64) (v : Stores β γ) :
    List GenesisState → Outcome (Stores β γ)
  | [] => .ok v
  | g :: gs => do
    let (_, v) ← initGenesis env (codeIDs 0) v g
    initGenesisStream (fun i => codeIDs (i + 1)) v gs

def importStream (codeIDs : ℕ → Registry.CW → Option UInt64) (v : Stores β γ) :
    List Association.GenesisState → Stores β γ
  | [] => v
  | gs :: rest => importStream (fun i => codeIDs (i + 1)) (importState env (codeIDs 0) v gs) rest

end Import

variable {env : Env β γ}

theorem initGenesisStream_eq {T : List GenesisState} {l : List Association.GenesisState}
    (hparse : T.mapM (GenesisState.parse env.texts) = .ok l)
    (hparams : ∀ g ∈ T, ∃ p, setParams g.params = .ok p) (codeIDs : ℕ → Registry.CW → Option UInt64)
    (v : Stores β γ) : initGenesisStream env codeIDs v T = .ok (importStream env codeIDs v l) := by
  induction T generalizing l codeIDs v with
  | nil =>
    cases hparse
    rfl
  | cons g T ih =>
    obtain ⟨⟨p, hp⟩, hparams⟩ := List.forall_mem_cons.mp hparams
    rw [List.mapM_cons] at hparse
    obtain ⟨gs, hgs, hparse⟩ := bind_eq_ok.mp hparse
    obtain ⟨rest, hrest, hl⟩ := bind_eq_ok.mp hparse
    cases hl
    rw [initGenesisStream, initGenesis, hp, hgs]
    exact ih hrest hparams _ _

theorem importStream_append (codeIDs : ℕ → Registry.CW → Option UInt64) (v : Stores β γ)
    (l l' : List Association.GenesisState) :
    importStream env codeIDs v (l ++ l') =
      importStream env (fun i => codeIDs (i + l.length)) (importStream env codeIDs v l) l' := by
  induction l generalizing codeIDs v with
  | nil => rfl
  | cons gs l ih =>
    rw [List.cons_append, importStream, ih, importStream]
    simp only [List.length_cons, Nat.add_assoc]

inductive Record where
  | pair (t : AccAddress) (a : Address)
  | code (a : Address) (bz : Bytes)
  | state (a : Address) (key val : Hash)
  | nonce (a : Address) (n : UInt64)
  | entry (key val : Bytes)

def Record.write (env : Env β γ) (v : Stores β γ) : Record → Stores β γ
  | .pair t a => Association.mapAddress env.keepers v t a
  | .code a bz => Association.setContractCode env.keepers v a bz
  | .state a key val => (setState a key val : Effect β γ).writes • v
  | .nonce a n => (setNonce a n : Effect β γ).writes • v
  | .entry key val => (Writes.ofEvm (Patch.set key val) : Writes β γ) • v

def others (gs : Association.GenesisState) : List Record :=
  gs.codes.map (fun c => .code c.1 c.2) ++ gs.states.map (fun x => .state x.1 x.2.1 x.2.2) ++
    gs.nonces.map (fun n => .nonce n.1 n.2) ++ gs.serialized.map fun e => .entry e.1 e.2

def records (gs : Association.GenesisState) : List Record :=
  gs.addressAssociations.map (fun aa => .pair aa.1 aa.2) ++ others gs

variable {codeIDs : Registry.CW → Option UInt64} {v w : Stores β γ}
  {gs : Association.GenesisState}

theorem importState_eq_others :
    importState env codeIDs v gs =
      (others gs).foldl (Record.write env) (associated env codeIDs v gs) := by
  simp only [others, List.foldl_append, List.foldl_map]
  rfl

theorem foldl_records : (records gs).foldl (Record.write env) v =
    (others gs).foldl (Record.write env)
      (Association.mapAll env.keepers v gs.addressAssociations) := by
  simp only [records, List.foldl_append, List.foldl_map]
  rfl

section Pieces

variable {T : Texts} {s : SortedStore Bytes Bytes} {params : Params}

def GenesisState.ofSerialized (params : Params) (es : List Serialized) : GenesisState :=
  { GenesisState.ofParams params with serialized := es }

def readSerialized (es : List Serialized) : Association.GenesisState :=
  ⟨[], [], [], [], es.map fun e => (e.storeKey, e.value)⟩

theorem foldl_streamEntry (params : Params) (l : List Serialized) (sent : List (List Serialized))
    (es : List Serialized) :
    ∃ sent' es', l.foldl (streamEntry params)
        (sent.map (.ofSerialized params), .ofSerialized params es) =
          (sent'.map (.ofSerialized params), .ofSerialized params es') ∧
      (sent' ++ [es']).flatten = (sent ++ [es]).flatten ++ l := by
  induction l generalizing sent es with
  | nil => exact ⟨sent, es, rfl, (List.append_nil _).symm⟩
  | cons e l ih =>
    rw [List.foldl_cons, streamEntry]
    dsimp only
    split
    · obtain ⟨sent', es', hfold, hflat⟩ := ih (sent ++ [es ++ [e]]) []
      refine ⟨sent', es', ?_, ?_⟩
      · rw [List.map_append] at hfold
        exact hfold
      · rw [hflat]
        simp
    · obtain ⟨sent', es', hfold, hflat⟩ := ih sent (es ++ [e])
      refine ⟨sent', es', hfold, ?_⟩
      rw [hflat]
      simp

theorem exists_streamEntries (params : Params) (l : List Serialized) :
    ∃ sent es, streamEntries params l = (sent ++ [es]).map (.ofSerialized params) ∧
      (sent ++ [es]).flatten = l := by
  obtain ⟨sent, es, hfold, hflat⟩ := foldl_streamEntry params l [] []
  refine ⟨sent, es, ?_, hflat⟩
  have hstart : l.foldl (streamEntry params) ([], .ofParams params) =
      (sent.map (.ofSerialized params), .ofSerialized params es) := hfold
  rw [streamEntries, hstart, List.map_append]
  rfl

theorem exists_serializedPieces (params : Params) (s : SortedStore Bytes Bytes) :
    ∃ sent last, (serializedPrefixes.flatMap fun pref =>
        streamEntries params ((iterate s pref).map fun e => ⟨pref, e.1, e.2⟩)) =
          (sent ++ [last]).map (.ofSerialized params) ∧
      (sent ++ [last]).flatten = exportSerialized s ∧ ∀ e ∈ last, e.pref = [0x17] := by
  choose sent last hsent hflat using fun pref : Bytes => exists_streamEntries params
    ((iterate s pref).map fun e => ⟨pref, e.1, e.2⟩)
  refine ⟨([[0x0b], [0x0d], [0x0e], [0x15], [0x16]].flatMap fun pref => sent pref ++ [last pref]) ++
    sent [0x17], last [0x17], ?_, ?_, ?_⟩
  · simp [serializedPrefixes, hsent]
  · rw [exportSerialized]
    simp only [← hflat]
    simp [serializedPrefixes]
  · intro e he
    have hmem : e ∈ (sent [0x17] ++ [last [0x17]]).flatten := by simp [he]
    rw [hflat] at hmem
    obtain ⟨_, _, rfl⟩ := List.mem_map.mp hmem
    rfl

theorem mapM_parse_ofSerialized (l : List (List Serialized)) :
    (l.map (GenesisState.ofSerialized params)).mapM (GenesisState.parse T) =
      .ok (l.map readSerialized) := by
  rw [List.mapM_map]
  exact mapM_eq_ok fun es _ => rfl

theorem mapM_parse_pairs {l : List AddressAssociation} {pairs : List (AccAddress × Address)}
    (h : l.mapM (fun aa => do
      let tabiAddress ← Registry.mustAccAddressFromBech32 T.toBech32 aa.tabiAddress
      return (tabiAddress, T.hexToAddress aa.ethAddress)) = (.ok pairs : Outcome _)) :
    (l.map fun aa => { GenesisState.ofParams params with addressAssociations := [aa] }).mapM
      (GenesisState.parse T) = .ok (pairs.map fun aa => ⟨[aa], [], [], [], []⟩) := by
  induction l generalizing pairs with
  | nil =>
    cases h
    rfl
  | cons aa l ih =>
    rw [List.mapM_cons] at h
    obtain ⟨pair, hpair, h⟩ := bind_eq_ok.mp h
    obtain ⟨rest, hrest, h⟩ := bind_eq_ok.mp h
    cases h
    have hone : GenesisState.parse T { GenesisState.ofParams params with
        addressAssociations := [aa] } = .ok ⟨[pair], [], [], [], []⟩ := by
      simp only [GenesisState.parse, List.mapM_cons, hpair]
      rfl
    rw [List.map_cons, List.mapM_cons, hone, ih hrest]
    rfl

def GenesisState.pieces (g : GenesisState) (sent : List (List Serialized)) : List GenesisState :=
  [.ofParams g.params] ++
    g.addressAssociations.map (fun aa => { GenesisState.ofParams g.params with
      addressAssociations := [aa] }) ++
    g.codes.map (fun c => { GenesisState.ofParams g.params with codes := [c] }) ++
    g.states.map (fun x => { GenesisState.ofParams g.params with states := [x] }) ++
    g.nonces.map (fun n => { GenesisState.ofParams g.params with nonces := [n] }) ++
    sent.map (.ofSerialized g.params)

def readPieces (gs : Association.GenesisState) (sent : List (List Serialized)) :
    List Association.GenesisState :=
  [⟨[], [], [], [], []⟩] ++ gs.addressAssociations.map (fun aa => ⟨[aa], [], [], [], []⟩) ++
    gs.codes.map (fun c => ⟨[], [c], [], [], []⟩) ++
    gs.states.map (fun x => ⟨[], [], [x], [], []⟩) ++
    gs.nonces.map (fun n => ⟨[], [], [], [n], []⟩) ++ sent.map readSerialized

theorem mem_pieces_params {g piece : GenesisState} {sent : List (List Serialized)}
    (h : piece ∈ g.pieces sent) : piece.params = g.params := by
  simp only [GenesisState.pieces, List.mem_append, List.mem_map, List.mem_singleton] at h
  rcases h with ((((rfl | ⟨_, _, rfl⟩) | ⟨_, _, rfl⟩) | ⟨_, _, rfl⟩) | ⟨_, _, rfl⟩) | ⟨_, _, rfl⟩
  all_goals rfl

theorem parse_pieces {g : GenesisState} (h : g.parse T = .ok gs) (sent : List (List Serialized)) :
    (g.pieces sent).mapM (GenesisState.parse T) = .ok (readPieces gs sent) := by
  obtain ⟨pairs, hpairs, h⟩ := bind_eq_ok.mp h
  cases h
  have hparams : [GenesisState.ofParams g.params].mapM (GenesisState.parse T) =
      .ok [⟨[], [], [], [], []⟩] := rfl
  have hcodes : (g.codes.map fun c => { GenesisState.ofParams g.params with codes := [c] }).mapM
      (GenesisState.parse T) =
        .ok (g.codes.map fun c => ⟨[], [(T.hexToAddress c.address, c.code)], [], [], []⟩) := by
    rw [List.mapM_map]
    exact mapM_eq_ok fun c _ => rfl
  have hstates : (g.states.map fun x => { GenesisState.ofParams g.params with states := [x] }).mapM
      (GenesisState.parse T) = .ok (g.states.map fun x => ⟨[], [], [(T.hexToAddress x.address,
        FixedBytes.ofBytes 32 x.key, FixedBytes.ofBytes 32 x.value)], [], []⟩) := by
    rw [List.mapM_map]
    exact mapM_eq_ok fun c _ => rfl
  have hnonces : (g.nonces.map fun n => { GenesisState.ofParams g.params with nonces := [n] }).mapM
      (GenesisState.parse T) =
        .ok (g.nonces.map fun n => ⟨[], [], [], [(T.hexToAddress n.address, n.nonce)], []⟩) := by
    rw [List.mapM_map]
    exact mapM_eq_ok fun c _ => rfl
  simp only [GenesisState.pieces, readPieces, List.mapM_append, hparams, mapM_parse_pairs hpairs,
    hcodes, hstates, hnonces, mapM_parse_ofSerialized, List.map_map, Function.comp_def]
  rfl

theorem flatMap_records_readPieces {sent : List (List Serialized)}
    (h : sent.flatten.map (fun e => (e.storeKey, e.value)) = gs.serialized) :
    (readPieces gs sent).flatMap records = records gs := by
  have hentries : (sent.map readSerialized).flatMap records =
      gs.serialized.map fun e => .entry e.1 e.2 := by
    rw [← h, List.flatMap_map, List.map_map, List.map_flatten, List.flatMap_def]
    simp [records, others, readSerialized, Function.comp_def]
  simp only [readPieces, List.flatMap_append, hentries, List.flatMap_map]
  simp [records, others, ← List.map_eq_flatMap]

theorem exportGenesisStream_eq {g : GenesisState} (hg : exportGenesis T s params = .ok g) :
    ∃ sent last, exportGenesisStream T s params = .ok (g.pieces (sent ++ [last])) ∧
      (sent ++ [last]).flatten = g.serialized ∧ ∀ e ∈ last, e.pref = [0x17] := by
  obtain ⟨states, hstates, hg⟩ := bind_eq_ok.mp hg
  obtain ⟨nonces, hnonces, hg⟩ := bind_eq_ok.mp hg
  cases hg
  obtain ⟨sent, last, hsent, hflat, hlast⟩ := exists_serializedPieces params s
  refine ⟨sent, last, ?_, hflat, hlast⟩
  rw [exportGenesisStream, hstates, Outcome.ok_bind, hnonces, Outcome.ok_bind, hsent]
  rfl

end Pieces

def initial (env : Env β γ) : Set Bytes :=
  {key | key = evmAddressToTabiAddressKey env.coinbase ∨
    key = tabiAddressToEVMAddressKey env.keepers.feeCollectorModuleAddress ∨
    ∃ k, key = pointerCWCodeKey k}

structure Alike (env : Env β γ) (v w : Stores β γ) : Prop where
  agree : Patch.AgreeOff (initial env) v.evm w.evm
  left : getTabiAddress v env.coinbase ≠ none
  right : getTabiAddress w env.coinbase ≠ none

theorem exists_mapAll_evm (K : Association.Keepers β γ) (l : List (AccAddress × Address)) :
    ∃ p : Patch Bytes Bytes, ∀ v : Stores β γ, (Association.mapAll K v l).evm = p • v.evm := by
  induction l with
  | nil => exact ⟨1, fun v => (one_smul _ v.evm).symm⟩
  | cons aa l ih =>
    obtain ⟨p, hp⟩ := ih
    refine ⟨p * (Patch.set (tabiAddressToEVMAddressKey aa.1) aa.2.bytes *
      Patch.set (evmAddressToTabiAddressKey aa.2) aa.1), fun v => ?_⟩
    rw [mul_smul, mul_smul, ← Association.mapAddress_evm K]
    exact hp _

theorem coinbase_within :
    (Patch.set (tabiAddressToEVMAddressKey env.keepers.feeCollectorModuleAddress)
      env.coinbase.bytes * Patch.set (evmAddressToTabiAddressKey env.coinbase)
      env.keepers.feeCollectorModuleAddress).Within (initial env) :=
  (Patch.within_set (.inr (.inl rfl)) _).mul (Patch.within_set (.inl rfl) _)

theorem storePointerCodes_agreeOff {m : Store Bytes Bytes}
    (h : Patch.AgreeOff (initial env) v.evm m) :
    Patch.AgreeOff (initial env) (storePointerCodes codeIDs v).evm m := by
  refine List.foldlRecOn (motive := fun v : Stores β γ => Patch.AgreeOff (initial env) v.evm m)
    _ _ h fun v h k _ => ?_
  unfold storePointerCode
  cases codeIDs k with
  | none => exact h
  | some id => exact h.within_smul (Patch.within_set (.inr (.inr ⟨k, rfl⟩)) _)

theorem getTabiAddress_write_ne_none {a : Address} (h : getTabiAddress v a ≠ none) (r : Record) :
    getTabiAddress (r.write env v) a ≠ none := by
  cases r with
  | pair t b =>
    rw [Record.write, Association.getTabiAddress_mapAddress, Function.update_apply]
    split
    · exact Option.some_ne_none _
    · exact h
  | code b bz =>
    rw [Record.write, Association.setContractCode, getTabiAddress_setCode_or]
    simp [h]
  | state b key val =>
    have hread : getTabiAddress (Record.write env v (.state b key val)) a = getTabiAddress v a :=
      evm_of_within (setState_within b key val) (by simp [evmAddressToTabiAddressKey]) v
    rwa [hread]
  | nonce b nonce =>
    have hread : getTabiAddress (Record.write env v (.nonce b nonce)) a = getTabiAddress v a :=
      evm_of_within (setNonce_within b nonce) (by simp [evmAddressToTabiAddressKey]) v
    rwa [hread]
  | entry key val =>
    show (Patch.set key val • v.evm) (evmAddressToTabiAddressKey a) ≠ none
    rw [Patch.set_smul]
    split
    · exact Option.some_ne_none _
    · exact h

theorem setCode_agreeOff {D : Set Bytes} (h : Patch.AgreeOff D v.evm w.evm) {a : Address}
    (ha : getTabiAddress v a = none ↔ getTabiAddress w a = none) (bz : Bytes) :
    Patch.AgreeOff D (Association.setContractCode env.keepers v a bz).evm
      (Association.setContractCode env.keepers w a bz).evm := by
  intro key hkey
  simp only [Association.setContractCode, setCode_evm, ha, h key hkey]

theorem Alike.write (h : Alike env v w) (r : Record) :
    Alike env (r.write env v) (r.write env w) := by
  refine ⟨?_, getTabiAddress_write_ne_none h.left r, getTabiAddress_write_ne_none h.right r⟩
  cases r with
  | pair t a => exact h.agree.smul _
  | code a bz =>
    refine setCode_agreeOff h.agree ?_ bz
    by_cases e : a = env.coinbase
    · simp [e, h.left, h.right]
    · have hkey : evmAddressToTabiAddressKey a ∉ initial env := by
        simpa [initial, evmAddressToTabiAddressKey, tabiAddressToEVMAddressKey,
          pointerCWCodeKey, FixedBytes.ext_iff] using e
      rw [getTabiAddress, getTabiAddress, h.agree _ hkey]
  | state a key val => exact h.agree.smul _
  | nonce a nonce => exact h.agree.smul _
  | entry key val => exact h.agree.smul _

theorem Alike.writes (h : Alike env v w) (l : List Record) :
    Alike env (l.foldl (Record.write env) v) (l.foldl (Record.write env) w) := by
  induction l generalizing v w with
  | nil => exact h
  | cons r l ih => exact ih (h.write r)

theorem getTabiAddress_associated_ne_none {a : Address} (h : getTabiAddress v a ≠ none) :
    getTabiAddress (Association.mapAll env.keepers v gs.addressAssociations) a ≠ none :=
  List.foldlRecOn (motive := fun v : Stores β γ => getTabiAddress v a ≠ none) _ _ h
    fun _ h aa _ => getTabiAddress_write_ne_none h (.pair aa.1 aa.2)

theorem Alike.importState (h : Patch.AgreeOff (initial env) v.evm w.evm)
    (hw : getTabiAddress w env.coinbase ≠ none) (codeIDs : Registry.CW → Option UInt64)
    (gs : Association.GenesisState) :
    Alike env (importState env codeIDs v gs) ((records gs).foldl (Record.write env) w) := by
  obtain ⟨p, hp⟩ := exists_mapAll_evm env.keepers gs.addressAssociations
  rw [importState_eq_others, foldl_records]
  refine Alike.writes ⟨?_, ?_, getTabiAddress_associated_ne_none hw⟩ _
  · -- The associations are made twice, with the uploads between.
    have hfirst := (h.within_smul coinbase_within).smul p
    rw [hp w, ← Patch.smul_smul_self p, associated, hp]
    refine (storePointerCodes_agreeOff ?_).smul p
    rw [hp]
    exact hfirst
  · refine getTabiAddress_associated_ne_none ?_
    rw [keeperInitGenesis, getTabiAddress_storePointerCodes]
    refine getTabiAddress_associated_ne_none ?_
    rw [Association.getTabiAddress_mapAddress, Function.update_self]
    exact Option.some_ne_none _

theorem importStream_agreeOff (h : Patch.AgreeOff (initial env) v.evm w.evm)
    (hw : getTabiAddress w env.coinbase ≠ none) (codeIDs : ℕ → Registry.CW → Option UInt64)
    (l : List Association.GenesisState) :
    Patch.AgreeOff (initial env) (importStream env codeIDs v l).evm
      ((l.flatMap records).foldl (Record.write env) w).evm := by
  induction l generalizing v w codeIDs with
  | nil => exact h
  | cons gs l ih =>
    have hgs := Alike.importState h hw (codeIDs 0) gs
    rw [importStream, List.flatMap_cons, List.foldl_append]
    exact ih hgs.agree hgs.right _

theorem importStream_agreeOff_importState {l : List Association.GenesisState}
    (hl : l.flatMap records = records gs) (v : Stores β γ)
    (codeIDs : ℕ → Registry.CW → Option UInt64) (codeIDs' : Registry.CW → Option UInt64) :
    Patch.AgreeOff (initial env) (importStream env codeIDs v l).evm
      (importState env codeIDs' v gs).evm := by
  have hv : Patch.AgreeOff (initial env) v.evm (Association.mapAddress env.keepers v
      env.keepers.feeCollectorModuleAddress env.coinbase).evm :=
    fun key hkey => (coinbase_within.smul_apply hkey v.evm).symm
  have hcoinbase : getTabiAddress (Association.mapAddress env.keepers v
      env.keepers.feeCollectorModuleAddress env.coinbase) env.coinbase ≠ none := by
    rw [Association.getTabiAddress_mapAddress, Function.update_self]
    nofun
  intro key hkey
  rw [importStream_agreeOff hv hcoinbase codeIDs l key hkey, hl,
    (Alike.importState hv hcoinbase codeIDs' gs).agree key hkey]

end Tabi.Genesis
