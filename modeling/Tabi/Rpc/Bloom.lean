import Tabi.StateDB.Temporary
import Tabi.Support.BitSet
import Mathlib.Data.Fin.VecNotation

/-!
# Rpc — bloom filters

A log query names addresses, and for each position a list of topics.
-/

namespace Tabi.Rpc

open Support
open StateDB (Log)

abbrev bloomByteLength : Nat := 256

abbrev Bloom := FixedBytes bloomByteLength

structure FilterCriteria where
  blockHash : Option Hash := none
  fromBlock : Option ℤ := none
  toBlock : Option ℤ := none
  addresses : List Address := []
  topics : List (List Hash) := []

def matchTopic (topicList : List Hash) (eventTopic : Option Hash) : Bool :=
  if topicList.length = 0 then true
  else match eventTopic with
    | none => false
    | some eventTopic => topicList.any fun topic => topic == eventTopic

def matchTopics (topics : List (List Hash)) (eventTopics : List Hash) : Bool :=
  topics.zipIdx.all fun entry => matchTopic entry.1 eventTopics[entry.2]?

def isLogExactMatch (log : Log) (crit : FilterCriteria) : Bool :=
  (crit.addresses.length == 0 || crit.addresses.any fun addrFilter => log.address == addrFilter) &&
    matchTopics crit.topics log.topics

def bitMasks : Fin 8 → UInt8 := ![1, 2, 4, 8, 16, 32, 64, 128]

/-- `bloomIndexes`.  A bit of a bloom is in range, so no lookup panics. -/
abbrev BloomIndexes := Fin 3 → Fin (8 * bloomByteLength)

theorem bloomIndex_lt (hi lo : UInt8) :
    ((hi.toNat <<< 8) &&& 2047) + lo.toNat < 8 * bloomByteLength := by
  have hand : (hi.toNat <<< 8) &&& 2047 = hi.toNat % 8 * 256 := by
    rw [Nat.and_two_pow_sub_one_eq_mod _ 11, Nat.shiftLeft_eq]
    omega
  have hlo := lo.toNat_lt
  rw [hand]
  show _ < 8 * 256
  omega

variable (keccak256 : Bytes → Hash)

theorem hashByte_lt (i : Fin 3) (low : Fin 2) : 2 * i.val + low.val < 32 := by omega

def hashByte (h : Hash) (i : Fin 3) (low : Fin 2) : UInt8 :=
  h.get ⟨2 * i.val + low.val, hashByte_lt i low⟩

def calcBloomIndexes (b : Bytes) : BloomIndexes := fun i =>
  ⟨((hashByte (keccak256 b) i 0).toNat <<< 8 &&& 2047) + (hashByte (keccak256 b) i 1).toNat,
    bloomIndex_lt _ _⟩

/-- The filters before they are encoded; `none` is a nil clause. -/
def filterClauses (addresses : List Address) (topics : List (List Hash)) :
    List (List (Option Bytes)) :=
  List.replicate (1 + topics.length) [] ++
    (if 0 < addresses.length then [addresses.map fun address => some address.bytes] else []) ++
    topics.map fun topicList => topicList.map fun topic => some topic.bytes

/-- The bits of a filter; one without clauses, or with a nil clause, is left out. -/
def encodeFilter (filter : List (Option Bytes)) : Option (List BloomIndexes) :=
  if filter.length = 0 then none
  else filter.mapM fun clause => clause.map (calcBloomIndexes keccak256)

def encodeFilters (addresses : List Address) (topics : List (List Hash)) :
    List (List BloomIndexes) :=
  (filterClauses addresses topics).filterMap (encodeFilter keccak256)

theorem wordMod_lt (n : Nat) : n % (8 * bloomByteLength) < 8 * bloomByteLength :=
  Nat.mod_lt _ (by decide)

/-- `matchBloomIndexes`: the bits of a bloom are big endian. -/
def matchBloomIndexes (bloom : Bloom) (idx : BloomIndexes) : Bool :=
  decide (∀ i, bloom.get ⟨bloomByteLength - 1 - (idx i).val / 8, FixedBytes.byteOf_lt (idx i)⟩ &&&
    bitMasks (Fin.ofNat 8 (idx i).val) ≠ 0)

def matchFilter (bloom : Bloom) (filter : List BloomIndexes) : Bool :=
  filter.any (matchBloomIndexes bloom)

def matchFilters (bloom : Bloom) (filters : List (List BloomIndexes)) : Bool :=
  filters.all (matchFilter bloom)

def bloomBits (b : Bytes) : BloomIndexes := fun i =>
  ⟨(256 * (hashByte (keccak256 b) i 0).toNat + (hashByte (keccak256 b) i 1).toNat) %
    (8 * bloomByteLength), wordMod_lt _⟩

def bloomKeys (log : Log) : List Bytes := log.address.bytes :: log.topics.map FixedBytes.bytes

def createBloom (logs : List Log) : Bloom :=
  ((logs.flatMap bloomKeys).flatMap fun b => List.ofFn (bloomBits keccak256 b)).foldl
    FixedBytes.setBit (.zero bloomByteLength)

variable {keccak256 : Bytes → Hash}

def Holds (keccak256 : Bytes → Hash) (bloom : Bloom) (b : Bytes) : Prop :=
  ∀ i, bloom.testBit (bloomBits keccak256 b i) = true

theorem calcBloomIndexes_eq (b : Bytes) : calcBloomIndexes keccak256 b = bloomBits keccak256 b := by
  funext i
  refine Fin.ext ?_
  simp only [calcBloomIndexes, bloomBits]
  have hlo := (hashByte (keccak256 b) i 1).toNat_lt
  rw [Nat.and_two_pow_sub_one_eq_mod _ 11, Nat.shiftLeft_eq]
  show _ = _ % (8 * 256)
  omega

theorem bitMasks_eq (i : Fin (8 * bloomByteLength)) :
    bitMasks (Fin.ofNat 8 i.val) = FixedBytes.maskOf i := by
  have h : ∀ j : Fin 8, bitMasks j = (1 : UInt8) <<< UInt8.ofNat j.val := by decide
  exact h (Fin.ofNat 8 i.val)

variable {bloom : Bloom}

theorem matchBloomIndexes_iff {b : Bytes} :
    matchBloomIndexes bloom (calcBloomIndexes keccak256 b) = true ↔ Holds keccak256 bloom b := by
  rw [matchBloomIndexes, decide_eq_true_iff, calcBloomIndexes_eq, Holds]
  refine forall_congr' fun i => ?_
  rw [FixedBytes.testBit_iff, bitMasks_eq]
  rfl

theorem encodeFilter_keys {α : Type} (key : α → Bytes) {xs : List α} (hxs : xs ≠ []) :
    encodeFilter keccak256 (xs.map fun x => some (key x)) =
      some (xs.map fun x => calcBloomIndexes keccak256 (key x)) := by
  have hlen : ¬ (xs.map fun x => some (key x)).length = 0 := by
    rwa [List.length_map, List.length_eq_zero_iff]
  rw [encodeFilter, if_neg hlen]
  clear hlen hxs
  induction xs with
  | nil => rfl
  | cons x xs ih =>
    rw [List.map_cons, List.mapM_cons, ih]
    rfl

def Passes (keccak256 : Bytes → Hash) (bloom : Bloom) (filter : List (Option Bytes)) : Prop :=
  ∀ encoded, encodeFilter keccak256 filter = some encoded → matchFilter bloom encoded = true

theorem passes_keys_iff {α : Type} (key : α → Bytes) {xs : List α} :
    Passes keccak256 bloom (xs.map fun x => some (key x)) ↔
      xs = [] ∨ ∃ x ∈ xs, Holds keccak256 bloom (key x) := by
  unfold Passes
  by_cases h : xs = []
  · subst h
    simp [encodeFilter]
  · have hmatch : matchFilter bloom (xs.map fun x => calcBloomIndexes keccak256 (key x)) = true ↔
        ∃ x ∈ xs, Holds keccak256 bloom (key x) := by
      rw [matchFilter, List.any_map, List.any_eq_true]
      exact exists_congr fun x => and_congr_right fun _ => matchBloomIndexes_iff
    rw [encodeFilter_keys key h, or_iff_right h, ← hmatch]
    exact ⟨fun hpass => hpass _ rfl, fun hmatch _ e => Option.some.inj e ▸ hmatch⟩

theorem matchFilters_encodeFilters {addresses : List Address} {topics : List (List Hash)} :
    matchFilters bloom (encodeFilters keccak256 addresses topics) = true ↔
      (addresses = [] ∨ ∃ address ∈ addresses, Holds keccak256 bloom address.bytes) ∧
        ∀ topicList ∈ topics, topicList = [] ∨
          ∃ topic ∈ topicList, Holds keccak256 bloom topic.bytes := by
  have hpasses : matchFilters bloom (encodeFilters keccak256 addresses topics) = true ↔
      ∀ filter ∈ filterClauses addresses topics, Passes keccak256 bloom filter := by
    rw [matchFilters, encodeFilters, List.all_eq_true, List.forall_mem_filterMap]
    exact Iff.rfl
  have hempty : ∀ filter ∈ List.replicate (1 + topics.length) [],
      Passes keccak256 bloom filter := by
    intro filter hfilter
    rw [List.eq_of_mem_replicate hfilter]
    rintro _ ⟨⟩
  have haddresses : (∀ filter ∈ if 0 < addresses.length then
        [addresses.map fun address => some address.bytes] else [], Passes keccak256 bloom filter) ↔
      (addresses = [] ∨ ∃ address ∈ addresses, Holds keccak256 bloom address.bytes) := by
    rw [← passes_keys_iff]
    split
    · exact List.forall_mem_singleton
    · rename_i hlen
      rw [List.eq_nil_of_length_eq_zero (Nat.eq_zero_of_not_pos hlen), passes_keys_iff]
      exact ⟨fun _ => .inl rfl, fun _ => nofun⟩
  rw [hpasses, filterClauses, List.forall_mem_append, List.forall_mem_append, haddresses,
    List.forall_mem_map, and_iff_right hempty]
  exact and_congr_right fun _ => forall₂_congr fun _ _ => passes_keys_iff FixedBytes.bytes

theorem createBloom_holds {logs : List Log}
    (hbloom : Covers bloom.bytes (createBloom keccak256 logs).bytes) {log : Log} (hlog : log ∈ logs)
    {b : Bytes} (hb : b ∈ bloomKeys log) : Holds keccak256 bloom b := by
  intro i
  refine hbloom.testBit (FixedBytes.testBit_foldl_setBit _ _ ?_)
  rw [List.mem_flatMap]
  exact ⟨b, List.mem_flatMap.mpr ⟨log, hlog, hb⟩, List.mem_ofFn.mpr ⟨i, rfl⟩⟩

theorem matchTopic_iff {topicList : List Hash} {eventTopic : Option Hash} :
    matchTopic topicList eventTopic = true ↔
      topicList = [] ∨ ∃ topic ∈ topicList, eventTopic = some topic := by
  unfold matchTopic
  split
  · rename_i hempty
    exact ⟨fun _ => .inl (List.eq_nil_of_length_eq_zero hempty), fun _ => rfl⟩
  · rename_i hlen
    rw [or_iff_right fun e => hlen (congrArg List.length e)]
    cases eventTopic with
    | none =>
      constructor
      · rintro ⟨⟩
      · rintro ⟨_, -, ⟨⟩⟩
    | some eventTopic =>
      rw [List.any_eq_true]
      refine exists_congr fun topic => and_congr_right fun _ => ?_
      rw [beq_iff_eq, Option.some.injEq, eq_comm]

theorem matchTopics_iff {topics : List (List Hash)} {eventTopics : List Hash} :
    matchTopics topics eventTopics = true ↔
      ∀ (i : Nat) topicList, topics[i]? = some topicList → topicList = [] ∨
        ∃ topic ∈ topicList, eventTopics[i]? = some topic := by
  rw [matchTopics, List.all_eq_true]
  constructor
  · intro h i topicList hi
    exact matchTopic_iff.mp (h (topicList, i) (List.mem_zipIdx_iff_getElem?.mpr hi))
  · rintro h ⟨topicList, i⟩ hi
    exact matchTopic_iff.mpr (h i topicList (List.mem_zipIdx_iff_getElem?.mp hi))

theorem matchFilters_of_exactMatch {crit : FilterCriteria} {logs : List Log}
    (hbloom : Covers bloom.bytes (createBloom keccak256 logs).bytes) {log : Log} (hlog : log ∈ logs)
    (hmatch : isLogExactMatch log crit = true) :
    matchFilters bloom (encodeFilters keccak256 crit.addresses crit.topics) = true := by
  have hholds := fun {b} => createBloom_holds hbloom hlog (b := b)
  rw [isLogExactMatch, Bool.and_eq_true, Bool.or_eq_true, matchTopics_iff] at hmatch
  obtain ⟨haddress, htopics⟩ := hmatch
  rw [matchFilters_encodeFilters]
  constructor
  · rcases haddress with hempty | hany
    · exact .inl (List.eq_nil_of_length_eq_zero (beq_iff_eq.mp hempty))
    · obtain ⟨address, hmem, e⟩ := List.any_eq_true.mp hany
      rw [beq_iff_eq] at e
      exact .inr ⟨address, hmem, hholds (e ▸ List.mem_cons_self)⟩
  · intro topicList hmem
    obtain ⟨i, hi⟩ := List.mem_iff_getElem?.mp hmem
    refine (htopics i topicList hi).imp_right ?_
    rintro ⟨topic, htopic, hevent⟩
    refine ⟨topic, htopic, hholds (List.mem_cons_of_mem _ ?_)⟩
    exact List.mem_map_of_mem (List.mem_of_getElem? hevent)

end Tabi.Rpc
