import Tabi.Rpc.Contexts
import Tabi.Support.Hex

/-!
# Rpc — storage and its proofs

`GetStorageAt` and `GetProof` (`evmrpc/state.go`) are asked for storage slots by texts.
-/

namespace Tabi.Rpc

open Support Fallible
open StateDB (stateKey)

def padOdd (s : Bytes) : Bytes := if s.length % 2 = 1 then 48 :: s else s

def decodeHash (s : Bytes) : Except String (Hash × Nat) :=
  let digits := padOdd (Hex.strip0x s)
  if Hex.isHex digits = false then .error "hex string invalid"
  else
    let b := Hex.decode digits
    if 32 < b.length then .error "hex string too long, want at most 32 bytes"
    else .ok (FixedBytes.ofBytes 32 b, b.length)

def paddedKey (key : Bytes) : Hash := FixedBytes.ofBytes 32 key

structure ProofResult where
  address : Address
  hexValues : List Bytes
  storageProof : List Bytes

/-- `StateAPI`.  The stores keep, of every height, what was committed; the IAVL store answers with
it and a proof, and a context of a height reads it. -/
structure StateAPI extends HeightNode where
  committed : Int64 → Address → Hash → Option Bytes
  findsStore : QueryContext → Bool
  /-- `Query` of the IAVL store at a height: the value and the proof. -/
  query : Int64 → Bytes → Option Bytes × Bytes
  query_value : ∀ height a slot, (query height (stateKey a ++ slot.bytes)).1 =
    committed height a slot
  ofHeight_storage : ∀ {height ctx}, contexts.ofHeight height = some ctx →
    ctx.storage = committed height
  latest_storage : contexts.latest.storage = committed contexts.latest.height

namespace StateAPI

variable (api : StateAPI)

def stateContext (blockNrOrHash : BlockNumberOrHash) : Fallible QueryContext := do
  match ← api.getBlockNumberByNrOrHash blockNrOrHash with
  | none => return api.ctx latestCtxHeight
  | some block =>
    require (¬ api.currentHeight < block) "cannot query future blocks"
    let _ ← ofErr (checkVersion (api.ctx block))
    return api.ctx block

def getStorageAt (address : Address) (hexKey : Bytes) (blockNrOrHash : BlockNumberOrHash) :
    Fallible Hash := do
  let sdkCtx ← api.stateContext blockNrOrHash
  let (key, _) ← ofErr ((decodeHash hexKey).mapError ("unable to decode storage key: " ++ ·))
  return sdkCtx.getState address key

def proofBlock : BlockNumberOrHash → Fallible ResultBlock
  | .number blockNr => do
    let blockNumber ← api.getBlockNumber blockNr
    ofErr (api.blockAt blockNumber)
  | .hash blockHash => ofErr (api.blockByHash blockHash)

def proofQuery (height : Int64) (address : Address) (key : Bytes) : Option Bytes × Bytes :=
  api.query height (stateKey address ++ (paddedKey key).bytes)

def getProof (address : Address) (storageKeys : List Bytes) (blockNrOrHash : BlockNumberOrHash) :
    Fallible ProofResult := do
  let block ← api.proofBlock blockNrOrHash
  let _ ← ofErr (checkVersion (api.ctx block.height))
  require (api.findsStore (api.ctx block.height) = true) "cannot find EVM IAVL store"
  return {
    address
    hexValues := storageKeys.map fun key =>
      Hex.encode ((api.proofQuery block.height address key).1.getD [])
    storageProof := storageKeys.map fun key => (api.proofQuery block.height address key).2 }

end StateAPI

def SelfSpelled (key : Bytes) : Prop :=
  key = [] ∨ ∃ d, 48 ≤ d ∧ d ≤ 57 ∧ Hex.strip0x key = List.replicate 63 51 ++ [d]

section Digits

open Hex

theorem value_lt {c : UInt8} {v : Nat} (h : value? c = some v) : v < 16 ∧ 48 ≤ c.toNat := by
  unfold value? at h
  simp only [UInt8.le_iff_toNat_le, UInt8.toNat_ofNat] at h
  split at h
  · cases h
    omega
  · split at h
    · cases h
      omega
    · split at h
      · cases h
        omega
      · cases h

theorem decimal_of_value {c : UInt8} {v n : Nat} (h : value? c = some v)
    (hc : c.toNat = n * 16 + v) : 48 ≤ c ∧ c ≤ 57 ∧ n = 3 := by
  have hlt := value_lt h
  unfold value? at h
  simp only [UInt8.le_iff_toNat_le, UInt8.toNat_ofNat] at h ⊢
  split at h
  · cases h
    omega
  · split at h
    · cases h
      omega
    · split at h
      · cases h
        omega
      · cases h

theorem eq_of_value_three {c : UInt8} (h : value? c = some 3) : c = 51 := by
  apply UInt8.toNat_inj.mp
  unfold value? at h
  simp only [UInt8.le_iff_toNat_le, UInt8.toNat_ofNat] at h ⊢
  split at h
  · have := Option.some.inj h
    omega
  · split at h
    · have := Option.some.inj h
      omega
    · split at h
      · have := Option.some.inj h
        omega
      · cases h

variable {t : Bytes}

theorem value_byteAt (hdigits : ∀ c ∈ t, (value? c).isSome) {k : Nat} (hk : k < t.length) :
    value? (byteAt t k) = some (digitAt t k) := by
  have hget : t.reverse[k]? = some (t.reverse.get ⟨k, by simpa using hk⟩) :=
    List.getElem?_eq_getElem _
  generalize t.reverse.get ⟨k, _⟩ = c at hget
  obtain ⟨v, hv⟩ := Option.isSome_iff_exists.mp
    (hdigits c (List.mem_reverse.mp (List.mem_of_getElem? hget)))
  rw [byteAt, digitAt, hget, Option.getD_some, Option.bind_some, hv, Option.getD_some]

theorem digitAt_lt (hdigits : ∀ c ∈ t, (value? c).isSome) (k : Nat) : digitAt t k < 16 := by
  rcases Nat.lt_or_ge k t.length with hlt | hge
  · exact (value_lt (value_byteAt hdigits hlt)).1
  · rw [digitAt_of_le hge]
    decide

theorem threes_of_spelled (hdigits : ∀ c ∈ t, (value? c).isSome) (hlen : t.length ≤ 64)
    (hpos : 0 < t.length)
    (h : ∀ j < 32, j < t.length →
      (byteAt t j).toNat = digitAt t (2 * j + 1) * 16 + digitAt t (2 * j)) :
    t.length = 64 ∧ (48 ≤ byteAt t 0 ∧ byteAt t 0 ≤ 57) ∧
      ∀ k, 0 < k → k < 64 → byteAt t k = 51 := by
  have hchar : ∀ k < t.length, 48 ≤ (byteAt t k).toNat :=
    fun k hk => (value_lt (value_byteAt hdigits hk)).2
  -- a byte is made of two digits that are there, so there are almost as many as there can be
  have hmany : 63 ≤ t.length := by
    by_contra hfew
    rcases Nat.eq_or_lt_of_le (Nat.succ_le_of_lt hpos) with hone | hmore
    · have hbyte := h 0 (by decide) hpos
      have hlow := digitAt_lt hdigits (2 * 0)
      have := hchar 0 hpos
      rw [digitAt_of_le (k := 2 * 0 + 1) (by omega)] at hbyte
      omega
    · obtain ⟨j, hj, hjt, hout⟩ : ∃ j < 32, j < t.length ∧ t.length ≤ 2 * j :=
        ⟨min (t.length - 1) 31, by omega, by omega, by omega⟩
      have hbyte := h j hj hjt
      have := hchar j hjt
      rw [digitAt_of_le (k := 2 * j + 1) (by omega), digitAt_of_le hout] at hbyte
      omega
  have hfirst := decimal_of_value (value_byteAt hdigits hpos) (h 0 (by decide) hpos)
  have hthree : ∀ k, 0 < k → k < t.length → byteAt t k = 51 := by
    intro k
    induction k using Nat.strongRecOn with
    | ind k ih =>
      intro hk hkt
      refine eq_of_value_three ((value_byteAt hdigits hkt).trans (congrArg some ?_))
      rcases Nat.eq_or_lt_of_le (Nat.succ_le_of_lt hk) with rfl | hmore
      · exact hfirst.2.2
      · have hhalf := ih (k / 2) (by omega) (by omega) (by omega)
        have hbyte := h (k / 2) (by omega) (by omega)
        have hlow := digitAt_lt hdigits (2 * (k / 2))
        have hhigh := digitAt_lt hdigits (2 * (k / 2) + 1)
        rw [hhalf, show (51 : UInt8).toNat = 51 from rfl] at hbyte
        rcases Nat.mod_two_eq_zero_or_one k with heven | hodd
        · have : 2 * (k / 2) = k := by omega
          rw [this] at hbyte hlow hhigh
          omega
        · have : 2 * (k / 2) + 1 = k := by omega
          rw [this] at hbyte hhigh
          omega
  have hall : t.length = 64 := by
    by_contra hne
    have hbyte := h 31 (by decide) (by omega)
    have hlow := digitAt_lt hdigits (2 * 31)
    rw [hthree 31 (by decide) (by omega), digitAt_of_le (k := 2 * 31 + 1) (by omega),
      show (51 : UInt8).toNat = 51 from rfl] at hbyte
    omega
  exact ⟨hall, ⟨hfirst.1, hfirst.2.1⟩, fun k hk hk64 => hthree k hk (by omega)⟩

theorem eq_of_threes (hlen : t.length = 64) (hthree : ∀ k, 0 < k → k < 64 → byteAt t k = 51) :
    t = List.replicate 63 51 ++ [byteAt t 0] := by
  have hreverse : t.reverse = byteAt t 0 :: List.replicate 63 51 := by
    refine List.ext_getElem (by simp [hlen]) fun k hk _ => ?_
    have hread : t.reverse[k] = byteAt t k := by
      rw [byteAt, List.getElem?_eq_getElem hk, Option.getD_some]
    rw [hread]
    cases k with
    | zero => rfl
    | succ k =>
      rw [List.getElem_cons_succ, List.getElem_replicate]
      rw [List.length_reverse] at hk
      exact hthree (k + 1) (Nat.succ_pos k) (by omega)
  rw [← List.reverse_inj, hreverse]
  simp

theorem threes_spelled {d : UInt8} (hd : 48 ≤ d ∧ d ≤ 57) {j : Nat} (hj : j < 32) :
    byteAt (List.replicate 63 51 ++ [d]) j =
      UInt8.ofNat (digitAt (List.replicate 63 51 ++ [d]) (2 * j + 1) * 16 +
        digitAt (List.replicate 63 51 ++ [d]) (2 * j)) := by
  have hthree : ∀ k, k < 63 → (List.replicate 63 (51 : UInt8))[k]? = some 51 :=
    fun k hk => List.getElem?_replicate_of_lt hk
  have hdigit : ∀ k, k < 63 → digitAt (List.replicate 63 51 ++ [d]) (k + 1) = 3 := by
    intro k hk
    simp only [digitAt, List.reverse_append, List.reverse_replicate, List.reverse_singleton,
      List.singleton_append, List.getElem?_cons_succ, hthree k hk]
    rfl
  cases j with
  | zero =>
    have hlast : digitAt (List.replicate 63 51 ++ [d]) 0 = d.toNat - 48 := by
      simp [digitAt, value?, hd]
    have hle := UInt8.le_iff_toNat_le.mp hd.1
    rw [hdigit 0 (by decide), Nat.mul_zero, hlast, show 3 * 16 + (d.toNat - 48) = d.toNat by
      simp only [UInt8.toNat_ofNat] at hle
      omega, UInt8.ofNat_toNat]
    simp [byteAt]
  | succ j =>
    rw [hdigit _ (by omega), show 2 * (j + 1) = 2 * j + 1 + 1 by omega, hdigit _ (by omega)]
    simp only [byteAt, List.reverse_append, List.reverse_replicate, List.reverse_singleton,
      List.singleton_append, List.getElem?_cons_succ, hthree j (by omega)]
    rfl

end Digits

theorem strip0x_append (key : Bytes) : key = Hex.strip0x key ∨
    ∃ c : UInt8, c ≠ 0 ∧ key = [48, c] ++ Hex.strip0x key := by
  unfold Hex.strip0x
  cases h : Hex.has0xPrefix key with
  | false => exact .inl rfl
  | true =>
    refine .inr ?_
    unfold Hex.has0xPrefix at h
    split at h
    · rename_i c rest
      refine ⟨c, ?_, rfl⟩
      rintro rfl
      cases h
    · cases h

theorem digitAt_padOdd (s : Bytes) (k : Nat) : Hex.digitAt (padOdd s) k = Hex.digitAt s k := by
  unfold padOdd
  split
  · exact Hex.digitAt_cons_zero s k
  · rfl

theorem sublist_padOdd (s : Bytes) : s.Sublist (padOdd s) := by
  unfold padOdd
  split
  · exact List.sublist_cons_self 48 s
  · exact .refl s

theorem decodeHash_eq_ok {key : Bytes} {slot : Hash} {n : Nat}
    (h : decodeHash key = .ok (slot, n)) :
    (∀ c ∈ Hex.strip0x key, (Hex.value? c).isSome) ∧ (Hex.strip0x key).length ≤ 64 ∧
      ∀ b, FixedBytes.ofBytes 32 b = slot ↔ ∀ j < 32, Hex.byteAt b j =
        UInt8.ofNat (Hex.digitAt (Hex.strip0x key) (2 * j + 1) * 16 +
          Hex.digitAt (Hex.strip0x key) (2 * j)) := by
  have hsub := sublist_padOdd (Hex.strip0x key)
  simp only [decodeHash] at h
  split at h
  · cases h
  · rename_i hhex
    rw [Bool.not_eq_false] at hhex
    split at h
    · cases h
    · rename_i hshort
      cases h
      have hlen := Hex.length_decode hhex
      have hle := hsub.length_le
      refine ⟨fun c hc => ?_, by omega, fun b => ?_⟩
      · exact List.all_eq_true.mp (Bool.and_eq_true_iff.mp hhex).2 c (hsub.subset hc)
      · rw [Hex.ofBytes_eq_iff]
        refine forall₂_congr fun j _ => ?_
        rw [Hex.byteAt_decode hhex, digitAt_padOdd, digitAt_padOdd]

theorem paddedKey_eq_iff {key : Bytes} {slot : Hash} {n : Nat}
    (h : decodeHash key = .ok (slot, n)) : paddedKey key = slot ↔ SelfSpelled key := by
  obtain ⟨hdigits, hlen, hslot⟩ := decodeHash_eq_ok h
  rw [paddedKey, hslot, SelfSpelled]
  have hkey := strip0x_append key
  generalize Hex.strip0x key = t at *
  have hbyte : ∀ j < t.length, Hex.byteAt key j = Hex.byteAt t j := by
    intro j hj
    rcases hkey with rfl | ⟨c, -, rfl⟩
    · rfl
    · exact Hex.byteAt_append hj
  constructor
  · intro hspelled
    rcases Nat.eq_zero_or_pos t.length with hnil | hpos
    · obtain rfl := List.eq_nil_of_length_eq_zero hnil
      rcases hkey with rfl | ⟨c, hc, rfl⟩
      · exact .inl rfl
      · exact absurd (hspelled 0 (by decide)) hc
    · obtain ⟨hall, hdecimal, hthree⟩ := threes_of_spelled hdigits hlen hpos fun j hj hjt => by
        have hlow := digitAt_lt hdigits (2 * j)
        have hhigh := digitAt_lt hdigits (2 * j + 1)
        rw [← hbyte j hjt, hspelled j hj, UInt8.toNat_ofNat']
        exact Nat.mod_eq_of_lt (by omega)
      exact .inr ⟨_, hdecimal.1, hdecimal.2, eq_of_threes hall hthree⟩
  · rintro (rfl | ⟨d, hlow, hhigh, rfl⟩) j hj
    · rcases hkey with hnil | ⟨c, -, hcons⟩
      · rw [← hnil]
        rfl
      · cases hcons
    · rw [hbyte j (by simp; omega)]
      exact threes_spelled ⟨hlow, hhigh⟩ hj

def word (value : Option Bytes) : Hash := FixedBytes.ofBytes 32 (value.getD [])

theorem getState_eq_word (ctx : QueryContext) (addr : Address) (slot : Hash) :
    ctx.getState addr slot = word (ctx.storage addr slot) := by
  unfold QueryContext.getState word
  cases ctx.storage addr slot with
  | none => rfl
  | some val => rfl

namespace StateAPI

variable {api : StateAPI} {blockNrOrHash : BlockNumberOrHash} {block : ResultBlock}
  {ctx : QueryContext} {address : Address} {storageKeys : List Bytes}

/-- The two endpoints read the state of one block: `GetProof` that of the block, and `GetStorageAt`
in a context of its height. -/
structure ReadsBlock (api : StateAPI) (blockNrOrHash : BlockNumberOrHash) (block : ResultBlock)
    (ctx : QueryContext) : Prop where
  proofs : api.proofBlock blockNrOrHash = .ok block
  states : api.stateContext blockNrOrHash = .ok ctx
  height : api.contexts.ofHeight block.height = some ctx ∨
    ctx = api.contexts.latest ∧ api.contexts.latest.height = block.height

theorem ReadsBlock.storage (h : api.ReadsBlock blockNrOrHash block ctx) :
    ctx.storage = api.committed block.height := by
  rcases h.height with hown | ⟨rfl, hheight⟩
  · exact api.ofHeight_storage hown
  · rw [← hheight]
    exact api.latest_storage

theorem getStorageAt_eq (h : api.ReadsBlock blockNrOrHash block ctx) {key : Bytes} {slot : Hash}
    {n : Nat} (hkey : decodeHash key = .ok (slot, n)) :
    api.getStorageAt address key blockNrOrHash =
      .ok (word (api.committed block.height address slot)) := by
  rw [getStorageAt, h.states, hkey, ← h.storage, ← getState_eq_word]
  rfl

theorem getProof_hexValues (h : api.ReadsBlock blockNrOrHash block ctx) {proof : ProofResult}
    (hproof : api.getProof address storageKeys blockNrOrHash = .ok proof) :
    proof.hexValues = storageKeys.map fun key =>
      Hex.encode ((api.committed block.height address (paddedKey key)).getD []) := by
  obtain ⟨block', hblock, hproof⟩ := bind_eq_ok.mp hproof
  obtain ⟨_, -, hproof⟩ := bind_eq_ok.mp hproof
  obtain ⟨_, -, hproof⟩ := bind_eq_ok.mp hproof
  cases h.proofs.symm.trans hblock
  cases hproof
  simp only [proofQuery, api.query_value]

end StateAPI

def sevenAtZero (slot : Bytes) : Option Bytes :=
  if slot = List.replicate 32 0 then some (FixedBytes.ofBytes 32 [7]).bytes else none

def sevenContext (height : Int64) : QueryContext where
  height
  evmExists := true
  bankExists := true
  baseFeePerGas := .ok 0
  storage _ slot := sevenAtZero slot.bytes

def sevenContexts : Contexts where
  latest := sevenContext 3
  createQueryContext height := .ok (sevenContext height)

theorem sevenContexts_storage {height : Int64} {ctx : QueryContext}
    (h : sevenContexts.ofHeight height = some ctx) :
    ctx.storage = fun _ slot => sevenAtZero slot.bytes := by
  unfold Contexts.ofHeight at h
  split at h
  · cases h
  · cases h
    rfl

theorem drop_stateKey (a : Address) (slot : Hash) :
    (stateKey a ++ slot.bytes).drop 21 = slot.bytes := by
  have hlen : (stateKey a).length = 21 := by
    rw [stateKey, List.length_cons, a.length_eq]
  rw [← hlen, List.drop_left]

theorem sevenQuery_value (a : Address) (slot : Hash) :
    sevenAtZero ((stateKey a ++ slot.bytes).drop 21) = sevenAtZero slot.bytes := by
  rw [drop_stateKey]

def sevenAPI : StateAPI where
  toHeightNode := emptyHeightNode sevenContexts
  committed _ _ slot := sevenAtZero slot.bytes
  findsStore _ := true
  query _ key := (sevenAtZero (key.drop 21), [])
  query_value _ := sevenQuery_value
  ofHeight_storage := sevenContexts_storage
  latest_storage := rfl

theorem sevenAPI_readsBlock : sevenAPI.ReadsBlock (.number (.number 3)) (resultBlock emptyHash 3 [])
    (sevenContext 3) :=
  ⟨rfl, rfl, .inl rfl⟩

end Tabi.Rpc
