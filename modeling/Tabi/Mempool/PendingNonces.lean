import Tabi.Chain.Types
import Tabi.Support.BinarySearch
import Tabi.Support.Slots

/-!
# Mempool — pending nonces

The keeper's index of the transactions that wait in the mempool (`x/evm/keeper/keeper.go`): for each
sender a list sorted by nonce, and for each transaction key its sender and nonce.
-/

namespace Tabi.Mempool

open Support

/-! ### The index -/

abbrev TxKey := FixedBytes 32

structure PendingTx where
  key : TxKey
  nonce : UInt64
  priority : Int64
  deriving DecidableEq

structure AddressNoncePair where
  address : Address
  nonce : UInt64
  deriving DecidableEq

structure Index where
  pendingTxs : Address → Option (List PendingTx)
  keyToNonce : TxKey → Option AddressNoncePair

def uint64Cmp (a b : UInt64) : Ordering :=
  if a < b then .lt else if a = b then .eq else .gt

def findNonce (pendings : List PendingTx) (nonce : UInt64) : Nat × Bool :=
  BinarySearch.findBy pendings fun p => uint64Cmp nonce p.nonce

/-- The loop of `AddPendingNonce` over the sender's list, up to the first entry with the nonce: the
list it leaves and the key it has replaced, or `none` if there is no such entry. -/
def occupy (key : TxKey) (nonce : UInt64) (priority : Int64) :
    List PendingTx → Option (List PendingTx × Option TxKey)
  | [] => none
  | p :: ps =>
    if p.nonce = nonce then
      if p.priority < priority then
        some ({ p with priority := priority, key := key } :: ps, some p.key)
      else some (p :: ps, none)
    else (occupy key nonce priority ps).map fun r => (p :: r.1, r.2)

def sortByNonce (ps : List PendingTx) : List PendingTx :=
  ps.insertionSort fun p q => p.nonce ≤ q.nonce

namespace Index

def empty : Index := ⟨fun _ => none, fun _ => none⟩

def pending (x : Index) (a : Address) : List PendingTx := (x.pendingTxs a).getD []

def addPendingNonce (x : Index) (key : TxKey) (addr : Address) (nonce : UInt64)
    (priority : Int64) : Index :=
  match x.keyToNonce key with
  | some _ => x
  | none =>
    match occupy key nonce priority (x.pending addr) with
    | some (_, none) => x
    | some (ps, some replaced) =>
      { pendingTxs := Function.update x.pendingTxs addr (some ps)
        keyToNonce := Function.update (Function.update x.keyToNonce replaced none) key
          (some ⟨addr, nonce⟩) }
    | none =>
      { pendingTxs := Function.update x.pendingTxs addr
          (some (sortByNonce (x.pending addr ++ [⟨key, nonce, priority⟩])))
        keyToNonce := Function.update x.keyToNonce key (some ⟨addr, nonce⟩) }

def removePendingNonce (x : Index) (key : TxKey) : Index :=
  match x.keyToNonce key with
  | none => x
  | some tx =>
    let keyToNonce := Function.update x.keyToNonce key none
    match findNonce (x.pending tx.address) tx.nonce with
    | (_, false) => { x with keyToNonce := keyToNonce }
    | (firstMatch, true) =>
      let ps := (x.pending tx.address).eraseIdx firstMatch
      { pendingTxs := Function.update x.pendingTxs tx.address
          (if ps.length = 0 then none else some ps)
        keyToNonce := keyToNonce }

end Index

inductive Call where
  | addPendingNonce (key : TxKey) (addr : Address) (nonce : UInt64) (priority : Int64)
  | removePendingNonce (key : TxKey)
  deriving DecidableEq

namespace Index

def call (x : Index) : Call → Index
  | .addPendingNonce key addr nonce priority => x.addPendingNonce key addr nonce priority
  | .removePendingNonce key => x.removePendingNonce key

def run (x : Index) (calls : List Call) : Index := calls.foldl call x

/-- What a call offers for the slot of an address and a nonce: an `AddPendingNonce` whose key is not
indexed. -/
def offered (a : Address) (n : UInt64) (x : Index) : Call → List PendingTx
  | .addPendingNonce key addr nonce priority =>
    if addr = a ∧ nonce = n ∧ x.keyToNonce key = none then [⟨key, nonce, priority⟩] else []
  | .removePendingNonce _ => []

def offers (a : Address) (n : UInt64) : Index → List Call → List PendingTx
  | _, [] => []
  | x, c :: cs => offered a n x c ++ offers a n (x.call c) cs

def Occupied (x : Index) (a : Address) (n : UInt64) : Prop := ∃ p ∈ x.pending a, p.nonce = n

def entries (x : Index) : Set (Address × PendingTx) := {e | e.2 ∈ x.pending e.1}

end Index

def indexEntry (e : Address × PendingTx) : TxKey × AddressNoncePair := (e.2.key, ⟨e.1, e.2.nonce⟩)

/-! ### The abstract slots -/

def key (e : Address × PendingTx) : TxKey := e.2.key
def slot (e : Address × PendingTx) : Address × UInt64 := (e.1, e.2.nonce)
def priority (e : Address × PendingTx) : ℤ := e.2.priority.toInt

def Call.abstract : Call → Slots.Call (Address × PendingTx) TxKey
  | .addPendingNonce key addr nonce priority => .offer (addr, ⟨key, nonce, priority⟩)
  | .removePendingNonce key => .withdraw key

/-! ### Lists -/

section Lists

variable {a n m : UInt64} {k : TxKey} {pr : Int64} {ps qs : List PendingTx} {p q : PendingTx}

def Sorted (ps : List PendingTx) : Prop := ps.Pairwise fun p q => p.nonce < q.nonce

theorem uint64Cmp_eq : uint64Cmp n m = compare n.toNat m.toNat := by
  unfold uint64Cmp
  split_ifs with hlt heq
  · exact (compare_lt_iff_lt.mpr hlt).symm
  · exact (compare_eq_iff_eq.mpr (congrArg _ heq)).symm
  · refine (compare_gt_iff_gt.mpr ?_).symm
    have hne : n.toNat ≠ m.toNat := fun h => heq (UInt64.toNat_inj.mp h)
    have hle : ¬ n.toNat < m.toNat := hlt
    omega

theorem Sorted.toNat (hs : Sorted ps) : ps.Pairwise fun p q => p.nonce.toNat < q.nonce.toNat := hs

theorem findNonce_eq_true_iff (hs : Sorted ps) {i : Nat} :
    findNonce ps n = (i, true) ↔ ∃ p, ps[i]? = some p ∧ p.nonce = n := by
  simp only [findNonce, uint64Cmp_eq]
  rw [BinarySearch.findBy_eq_true_iff hs.toNat]
  simp only [UInt64.toNat_inj]

theorem findNonce_found_iff (hs : Sorted ps) :
    (findNonce ps n).2 = true ↔ ∃ p ∈ ps, p.nonce = n := by
  simp only [findNonce, uint64Cmp_eq]
  rw [BinarySearch.findBy_found_iff hs.toNat]
  simp only [UInt64.toNat_inj]

theorem sorted_iff_map : Sorted ps ↔ (ps.map PendingTx.nonce).Pairwise (· < ·) :=
  List.pairwise_map.symm

theorem Sorted.eq_of_nonce (hs : Sorted ps) (hp : p ∈ ps) (hq : q ∈ ps) (h : p.nonce = q.nonce) :
    p = q := by
  have hnodup : (ps.map PendingTx.nonce).Nodup :=
    (sorted_iff_map.mp hs).imp fun hlt => UInt64.ne_of_lt hlt
  exact List.inj_on_of_nodup_map hnodup hp hq h

theorem sorted_sortByNonce (hs : Sorted ps) (hfree : ∀ p ∈ ps, p.nonce ≠ q.nonce) :
    Sorted (sortByNonce (ps ++ [q])) := by
  have hperm : (sortByNonce (ps ++ [q])).Perm (ps ++ [q]) := List.perm_insertionSort ..
  have hdistinct : (ps ++ [q]).Pairwise fun p q => p.nonce ≠ q.nonce := by
    refine List.pairwise_append.mpr ⟨hs.imp UInt64.ne_of_lt, List.pairwise_singleton .., ?_⟩
    intro p hp r hr
    rw [List.mem_singleton.mp hr]
    exact hfree p hp
  have : Std.Total fun p q : PendingTx => p.nonce ≤ q.nonce := ⟨fun p q => UInt64.le_total ..⟩
  have : IsTrans PendingTx fun p q => p.nonce ≤ q.nonce := ⟨fun p q r => UInt64.le_trans⟩
  have hle : (sortByNonce (ps ++ [q])).Pairwise fun p q => p.nonce ≤ q.nonce :=
    List.pairwise_insertionSort ..
  have hne := (hperm.pairwise_iff fun {p q} h => Ne.symm h).mpr hdistinct
  exact (hle.and hne).imp fun h => UInt64.lt_of_le_of_ne h.1 h.2

theorem mem_sortByNonce : p ∈ sortByNonce (ps ++ [q]) ↔ p = q ∨ p ∈ ps := by
  rw [sortByNonce, List.mem_insertionSort, List.mem_append, List.mem_singleton, or_comm]

theorem mem_replaced {before after : List PendingTx} (hs : Sorted (before ++ p :: after))
    (hq : q.nonce = p.nonce) {r : PendingTx} :
    r ∈ before ++ q :: after ↔ r = q ∨ r ∈ before ++ p :: after ∧ r.nonce ≠ q.nonce := by
  have hp : p ∈ before ++ p :: after := List.mem_append_right _ List.mem_cons_self
  obtain ⟨-, hafter, hbefore⟩ := List.pairwise_append.mp hs
  have hpafter := (List.pairwise_cons.mp hafter).1
  constructor
  · intro hr
    rcases List.mem_append.mp hr with hr | hr
    · exact .inr ⟨List.mem_append_left _ hr,
        hq ▸ UInt64.ne_of_lt (hbefore r hr p List.mem_cons_self)⟩
    · rcases List.mem_cons.mp hr with rfl | hr
      · exact .inl rfl
      · exact .inr ⟨List.mem_append_right _ (List.mem_cons_of_mem _ hr),
          hq ▸ (UInt64.ne_of_lt (hpafter r hr)).symm⟩
  · rintro (rfl | ⟨hr, hne⟩)
    · exact List.mem_append_right _ List.mem_cons_self
    · rcases List.mem_append.mp hr with hr | hr
      · exact List.mem_append_left _ hr
      · rcases List.mem_cons.mp hr with rfl | hr
        · exact absurd hq.symm hne
        · exact List.mem_append_right _ (List.mem_cons_of_mem _ hr)

theorem mem_removed (hs : Sorted ps) {i : Nat} (hi : ps[i]? = some p) :
    q ∈ ps.eraseIdx i ↔ q ∈ ps ∧ q ≠ p := by
  rw [List.mem_eraseIdx_iff_getElem?]
  constructor
  · rintro ⟨j, hj, hq⟩
    refine ⟨List.mem_of_getElem? hq, ?_⟩
    rintro rfl
    obtain ⟨hilt, hie⟩ := List.getElem?_eq_some_iff.mp hi
    obtain ⟨hjlt, hje⟩ := List.getElem?_eq_some_iff.mp hq
    have hself : ¬ q.nonce < q.nonce := UInt64.lt_irrefl _
    rcases Nat.lt_or_gt_of_ne hj with h | h
    · have hlt := List.pairwise_iff_getElem.mp hs j i hjlt hilt h
      rw [hie, hje] at hlt
      exact hself hlt
    · have hlt := List.pairwise_iff_getElem.mp hs i j hilt hjlt h
      rw [hie, hje] at hlt
      exact hself hlt
  · rintro ⟨hq, hne⟩
    obtain ⟨j, hj⟩ := List.getElem?_of_mem hq
    refine ⟨j, ?_, hj⟩
    rintro rfl
    exact hne (Option.some.inj (hj.symm.trans hi))

theorem occupy_cases (k : TxKey) (n : UInt64) (pr : Int64) (ps : List PendingTx) :
    (occupy k n pr ps = none ∧ ∀ p ∈ ps, p.nonce ≠ n) ∨
    (∃ before p after, ps = before ++ p :: after ∧ p.nonce = n ∧
      ((occupy k n pr ps = some (ps, none) ∧ pr.toInt ≤ p.priority.toInt) ∨
       (occupy k n pr ps = some (before ++ ⟨k, n, pr⟩ :: after, some p.key) ∧
          p.priority.toInt < pr.toInt))) := by
  induction ps with
  | nil => exact .inl ⟨rfl, fun p hp => absurd hp List.not_mem_nil⟩
  | cons p ps ih =>
    rw [occupy]
    by_cases hn : p.nonce = n
    · refine .inr ⟨[], p, ps, rfl, hn, ?_⟩
      rw [if_pos hn]
      by_cases hlt : p.priority < pr
      · rw [if_pos hlt, ← hn]
        exact .inr ⟨rfl, Int64.lt_iff_toInt_lt.mp hlt⟩
      · rw [if_neg hlt]
        exact .inl ⟨rfl, not_lt.mp fun h => hlt (Int64.lt_iff_toInt_lt.mpr h)⟩
    · rw [if_neg hn]
      rcases ih with ⟨hnone, hfree⟩ | ⟨before, o, after, rfl, ho, ⟨hkept, hle⟩ | ⟨hnew, hlt⟩⟩
      · refine .inl ⟨by rw [hnone, Option.map_none], fun q hq => ?_⟩
        rcases List.mem_cons.mp hq with rfl | hq
        · exact hn
        · exact hfree q hq
      · exact .inr ⟨p :: before, o, after, rfl, ho, .inl ⟨by rw [hkept, Option.map_some], hle⟩⟩
      · exact .inr ⟨p :: before, o, after, rfl, ho,
          .inr ⟨by rw [hnew, Option.map_some, List.cons_append], hlt⟩⟩

end Lists

/-! ### Lists and keys in step -/

def Indexes (f : TxKey → Option AddressNoncePair) (T : Set (Address × PendingTx)) : Prop :=
  ∀ k e, f k = some e ↔ (k, e) ∈ indexEntry '' T

namespace Indexes

variable {f : TxKey → Option AddressNoncePair} {T : Set (Address × PendingTx)}
  {e : Address × PendingTx} {k : TxKey}

theorem of_mem (h : Indexes f T) (he : e ∈ T) : f (key e) = some ⟨e.1, e.2.nonce⟩ :=
  (h ..).mpr ⟨e, he, rfl⟩

theorem mem_key_iff (h : Indexes f T) : k ∈ key '' T ↔ f k ≠ none := by
  constructor
  · rintro ⟨e, he, rfl⟩
    rw [h.of_mem he]
    exact Option.some_ne_none _
  · intro hk
    obtain ⟨pair, hpair⟩ := Option.ne_none_iff_exists'.mp hk
    obtain ⟨e, he, hkey⟩ := (h k pair).mp hpair
    exact ⟨e, he, (Prod.mk.inj hkey).1⟩

theorem injOn_key (h : Indexes f T) (hslot : Set.InjOn slot T) : Set.InjOn key T := by
  intro p hp q hq hkey
  have hpair := h.of_mem hp
  rw [hkey, h.of_mem hq] at hpair
  injection Option.some.inj hpair with ha hn
  exact hslot hp hq (Prod.ext ha.symm hn.symm)

theorem insert (h : Indexes f T) (e : Address × PendingTx) (hfresh : f (key e) = none) :
    Indexes (Function.update f (key e) (some ⟨e.1, e.2.nonce⟩)) (Insert.insert e T) := by
  intro k pair
  rw [Set.image_insert_eq, Set.mem_insert_iff]
  by_cases hk : k = key e
  · subst hk
    have hout : (key e, pair) ∉ indexEntry '' T := fun hin => by
      rw [← h, hfresh] at hin
      cases hin
    rw [Function.update_self, or_iff_left hout]
    exact ⟨fun he => Prod.ext rfl (Option.some.inj he).symm,
      fun he => congrArg some (Prod.mk.inj he).2.symm⟩
  · rw [Function.update_of_ne hk, h]
    exact (or_iff_right fun he => hk (Prod.mk.inj he).1).symm

theorem erase (h : Indexes f T) (k : TxKey) :
    Indexes (Function.update f k none) {p ∈ T | key p ≠ k} := by
  intro k' pair
  by_cases hk : k' = k
  · subst hk
    rw [Function.update_self]
    refine iff_of_false (Option.some_ne_none pair).symm ?_
    rintro ⟨p, hp, hkey⟩
    exact hp.2 (Prod.mk.inj hkey).1
  · rw [Function.update_of_ne hk, h]
    constructor
    · rintro ⟨p, hp, hkey⟩
      exact ⟨p, ⟨hp, fun e => hk ((Prod.mk.inj hkey).1.symm.trans e)⟩, hkey⟩
    · rintro ⟨p, hp, hkey⟩
      exact ⟨p, hp.1, hkey⟩

end Indexes

/-! ### The invariant -/

namespace Index

variable {x : Index} {a : Address} {n : UInt64} {k : TxKey} {pr : Int64} {c : Call}
  {e : Address × PendingTx} {calls : List Call}

/-- **The invariant**: no empty list, every list sorted, and `keyToNonce` has the entries of the
lists. -/
structure Valid (x : Index) : Prop where
  nonempty : ∀ a, x.pendingTxs a ≠ some []
  sorted : ∀ a, Sorted (x.pending a)
  indexed : Indexes x.keyToNonce x.entries

theorem valid_empty : Valid empty where
  nonempty _ := (Option.some_ne_none _).symm
  sorted _ := List.Pairwise.nil
  indexed k e := by
    refine iff_of_false (Option.some_ne_none e).symm ?_
    rintro ⟨p, hp, -⟩
    exact absurd hp List.not_mem_nil

theorem Valid.injOn_slot (h : x.Valid) : Set.InjOn slot x.entries := by
  rintro ⟨a, p⟩ hp ⟨b, q⟩ hq he
  obtain ⟨hab, hn⟩ := Prod.mk.inj he
  obtain rfl : a = b := hab
  obtain rfl : p = q := (h.sorted a).eq_of_nonce hp hq hn
  rfl

theorem Valid.injOn_key (h : x.Valid) : Set.InjOn key x.entries :=
  h.indexed.injOn_key h.injOn_slot

theorem mem_entries_split {before after : List PendingTx} {p : PendingTx}
    (h : x.pending a = before ++ p :: after) : (a, p) ∈ x.entries := by
  change p ∈ x.pending a
  rw [h]
  exact List.mem_append_right _ List.mem_cons_self

theorem mem_entries_update {o : Option (List PendingTx)} {f : TxKey → Option AddressNoncePair} :
    e ∈ entries ⟨Function.update x.pendingTxs a o, f⟩ ↔
      if e.1 = a then e.2 ∈ o.getD [] else e ∈ x.entries := by
  change e.2 ∈ (Function.update x.pendingTxs a o e.1).getD [] ↔ _
  by_cases ha : e.1 = a
  · rw [if_pos ha, ha, Function.update_self]
  · rw [if_neg ha, Function.update_of_ne ha]
    rfl

theorem Valid.update (h : x.Valid) {o : Option (List PendingTx)} {T : Set (Address × PendingTx)}
    {f : TxKey → Option AddressNoncePair} (hne : o ≠ some []) (hs : Sorted (o.getD []))
    (hT : entries ⟨Function.update x.pendingTxs a o, f⟩ = T) (hf : Indexes f T) :
    Valid ⟨Function.update x.pendingTxs a o, f⟩ where
  nonempty b := by
    change Function.update x.pendingTxs a o b ≠ some []
    by_cases hb : b = a
    · subst hb
      rwa [Function.update_self]
    · rw [Function.update_of_ne hb]
      exact h.nonempty b
  sorted b := by
    change Sorted ((Function.update x.pendingTxs a o b).getD [])
    by_cases hb : b = a
    · subst hb
      rwa [Function.update_self]
    · rw [Function.update_of_ne hb]
      exact h.sorted b
  indexed := hT ▸ hf

theorem insert_spec (h : x.Valid) (hk : x.keyToNonce k = none)
    (hfree : ∀ p ∈ x.pending a, p.nonce ≠ n) :
    (⟨Function.update x.pendingTxs a (some (sortByNonce (x.pending a ++ [⟨k, n, pr⟩]))),
      Function.update x.keyToNonce k (some ⟨a, n⟩)⟩ : Index).Valid ∧
    entries ⟨Function.update x.pendingTxs a (some (sortByNonce (x.pending a ++ [⟨k, n, pr⟩]))),
      Function.update x.keyToNonce k (some ⟨a, n⟩)⟩ = insert (a, ⟨k, n, pr⟩) x.entries := by
  have hT : entries ⟨Function.update x.pendingTxs a
      (some (sortByNonce (x.pending a ++ [⟨k, n, pr⟩]))),
      Function.update x.keyToNonce k (some ⟨a, n⟩)⟩ = insert (a, ⟨k, n, pr⟩) x.entries := by
    ext ⟨b, q⟩
    rw [mem_entries_update, Set.mem_insert_iff, Prod.mk.injEq]
    by_cases hb : b = a
    · subst hb
      rw [if_pos rfl, Option.getD_some, mem_sortByNonce, and_iff_right rfl]
      rfl
    · rw [if_neg hb, or_iff_right fun he => hb he.1]
  refine ⟨h.update (fun he => ?_) (sorted_sortByNonce (h.sorted a) hfree) hT
    (h.indexed.insert (a, ⟨k, n, pr⟩) hk), hT⟩
  have hmem : (⟨k, n, pr⟩ : PendingTx) ∈ sortByNonce (x.pending a ++ [⟨k, n, pr⟩]) :=
    mem_sortByNonce.mpr (.inl rfl)
  rw [Option.some.inj he] at hmem
  exact absurd hmem List.not_mem_nil

theorem replace_spec (h : x.Valid) (hk : x.keyToNonce k = none) {before after : List PendingTx}
    {p : PendingTx} (hps : x.pending a = before ++ p :: after) (hn : p.nonce = n) :
    (⟨Function.update x.pendingTxs a (some (before ++ ⟨k, n, pr⟩ :: after)),
      Function.update (Function.update x.keyToNonce p.key none) k (some ⟨a, n⟩)⟩ : Index).Valid ∧
    entries ⟨Function.update x.pendingTxs a (some (before ++ ⟨k, n, pr⟩ :: after)),
      Function.update (Function.update x.keyToNonce p.key none) k (some ⟨a, n⟩)⟩ =
      insert (a, ⟨k, n, pr⟩) {q ∈ x.entries | slot q ≠ (a, n)} := by
  have hp : (a, p) ∈ x.entries := mem_entries_split hps
  have hsorted := h.sorted a
  rw [hps] at hsorted
  have hT : entries ⟨Function.update x.pendingTxs a (some (before ++ ⟨k, n, pr⟩ :: after)),
      Function.update (Function.update x.keyToNonce p.key none) k (some ⟨a, n⟩)⟩ =
      insert (a, ⟨k, n, pr⟩) {q ∈ x.entries | slot q ≠ (a, n)} := by
    ext ⟨b, q⟩
    rw [mem_entries_update, Set.mem_insert_iff, Prod.mk.injEq]
    by_cases hb : b = a
    · subst hb
      rw [if_pos rfl, Option.getD_some, mem_replaced hsorted hn.symm, and_iff_right rfl, ← hps]
      exact or_congr_right (and_congr_right fun _ => not_congr
        ⟨fun he => congrArg (Prod.mk b) he, fun he => (Prod.mk.inj he).2⟩)
    · rw [if_neg hb, or_iff_right fun he => hb he.1]
      exact (and_iff_left fun he => hb (Prod.mk.inj he).1).symm
  -- the entry of the slot is the one with the key that is dropped
  have hrest : {q ∈ x.entries | slot q ≠ (a, n)} = {q ∈ x.entries | key q ≠ p.key} := by
    ext q
    refine and_congr_right fun hq => not_congr ⟨fun hs => ?_, fun hs => ?_⟩
    · rw [h.injOn_slot hq hp (hs.trans (congrArg (Prod.mk a) hn.symm))]
      rfl
    · rw [h.injOn_key hq hp hs]
      exact congrArg (Prod.mk a) hn
  refine ⟨h.update (fun he => ?_) ?_ hT ?_, hT⟩
  · exact List.append_ne_nil_of_right_ne_nil _ (List.cons_ne_nil _ _) (Option.some.inj he)
  · rw [Option.getD_some, sorted_iff_map, List.map_append, List.map_cons]
    rw [sorted_iff_map, List.map_append, List.map_cons, hn] at hsorted
    exact hsorted
  · rw [hrest]
    refine (h.indexed.erase p.key).insert (a, ⟨k, n, pr⟩) ?_
    change Function.update x.keyToNonce p.key none k = none
    by_cases hkp : k = p.key
    · rw [hkp, Function.update_self]
    · rw [Function.update_of_ne hkp, hk]

theorem addPendingNonce_spec (h : x.Valid) :
    (x.addPendingNonce k a n pr).Valid ∧ (x.addPendingNonce k a n pr).entries =
      Slots.step key slot priority x.entries (.offer (a, ⟨k, n, pr⟩)) := by
  have hkey : key (a, ⟨k, n, pr⟩) ∈ key '' x.entries ↔ x.keyToNonce k ≠ none :=
    h.indexed.mem_key_iff
  rw [Slots.step]
  unfold addPendingNonce
  cases hk : x.keyToNonce k with
  | some pair =>
    rw [if_pos (hkey.mpr (hk ▸ Option.some_ne_none pair))]
    exact ⟨h, rfl⟩
  | none =>
    rw [if_neg fun hin => hkey.mp hin hk]
    dsimp only
    rcases occupy_cases k n pr (x.pending a) with
      ⟨hnone, hfree⟩ | ⟨before, p, after, hps, hn, ⟨hkept, hle⟩ | ⟨hnew, hlt⟩⟩
    · -- the slot is free: the entry joins the others
      have hslot : ∀ q ∈ x.entries, slot q ≠ (a, n) := by
        rintro ⟨b, q⟩ hq heq
        obtain ⟨hb, hqn⟩ := Prod.mk.inj heq
        obtain rfl : b = a := hb
        exact hfree q hq hqn
      have hrest : {q ∈ x.entries | slot q ≠ slot (a, ⟨k, n, pr⟩)} = x.entries :=
        Set.sep_eq_self_iff_mem_true.mpr hslot
      have hlow : ¬ ∃ q ∈ x.entries, slot q = slot (a, ⟨k, n, pr⟩) ∧
          priority (a, ⟨k, n, pr⟩) ≤ priority q := by
        rintro ⟨q, hq, hs, -⟩
        exact hslot q hq hs
      rw [hnone, if_neg hlow, hrest]
      exact insert_spec h hk hfree
    · -- it is held by an entry of at least this priority, which stays
      have hp : (a, p) ∈ x.entries := mem_entries_split hps
      rw [hkept, if_pos ⟨(a, p), hp, congrArg (Prod.mk a) hn, hle⟩]
      exact ⟨h, rfl⟩
    · -- it is held by a lower entry, and by no other, since slots are held once
      have hp : (a, p) ∈ x.entries := mem_entries_split hps
      have hlow : ¬ ∃ q ∈ x.entries, slot q = slot (a, ⟨k, n, pr⟩) ∧
          priority (a, ⟨k, n, pr⟩) ≤ priority q := by
        rintro ⟨q, hq, hs, hle⟩
        rw [h.injOn_slot hq hp (hs.trans (congrArg (Prod.mk a) hn.symm))] at hle
        exact absurd hlt (not_lt.mpr hle)
      rw [hnew, if_neg hlow]
      exact replace_spec h hk hps hn

theorem removePendingNonce_spec (h : x.Valid) :
    (x.removePendingNonce k).Valid ∧ (x.removePendingNonce k).entries =
      Slots.step key slot priority x.entries (.withdraw k) := by
  rw [Slots.step]
  unfold removePendingNonce
  cases hk : x.keyToNonce k with
  | none =>
    refine ⟨h, (Set.sep_eq_self_iff_mem_true.mpr fun e he hkey => ?_).symm⟩
    exact h.indexed.mem_key_iff.mp ⟨e, he, hkey⟩ hk
  | some tx =>
    obtain ⟨⟨a, p⟩, hp, hkey⟩ := (h.indexed k tx).mp hk
    obtain ⟨hpk, rfl⟩ := Prod.mk.inj hkey
    obtain rfl : p.key = k := hpk
    obtain ⟨i, hi⟩ := List.getElem?_of_mem hp
    have hfind := (findNonce_eq_true_iff (h.sorted a)).mpr ⟨p, hi, rfl⟩
    dsimp only
    rw [hfind]
    dsimp only
    set qs := (x.pending a).eraseIdx i with hqs
    -- an empty list is deleted from the map, and reads as empty all the same
    have hgetD : (if qs.length = 0 then none else some qs).getD [] = qs := by
      split_ifs with hlen
      · rw [Option.getD_none, List.length_eq_zero_iff.mp hlen]
      · rfl
    have hT : entries ⟨Function.update x.pendingTxs a (if qs.length = 0 then none else some qs),
        Function.update x.keyToNonce p.key none⟩ = {q ∈ x.entries | key q ≠ p.key} := by
      ext ⟨b, q⟩
      rw [mem_entries_update]
      by_cases hb : b = a
      · subst hb
        rw [if_pos rfl, hgetD, hqs, mem_removed (h.sorted b) hi]
        refine and_congr_right fun hq => not_congr ⟨fun he => congrArg PendingTx.key he,
          fun he => ?_⟩
        have hqp : (b, q) = (b, p) := h.injOn_key hq hp he
        exact (Prod.mk.inj hqp).2
      · rw [if_neg hb]
        exact (and_iff_left_of_imp fun hq he => hb (Prod.mk.inj (h.injOn_key hq hp he)).1).symm
    refine ⟨h.update ?_ ?_ hT (h.indexed.erase p.key), hT⟩
    · split_ifs with hlen
      · exact (Option.some_ne_none _).symm
      · exact fun he => hlen (List.length_eq_zero_iff.mpr (Option.some.inj he))
    · rw [hgetD]
      exact (h.sorted a).eraseIdx i

theorem run_concat : x.run (calls ++ [c]) = (x.run calls).call c := List.foldl_append ..

theorem Valid.call (h : x.Valid) : (x.call c).Valid := by
  cases c with
  | addPendingNonce k a n pr => exact (addPendingNonce_spec h).1
  | removePendingNonce k => exact (removePendingNonce_spec h).1

theorem entries_call (h : x.Valid) :
    (x.call c).entries = Slots.step key slot priority x.entries c.abstract := by
  cases c with
  | addPendingNonce k a n pr => exact (addPendingNonce_spec h).2
  | removePendingNonce k => exact (removePendingNonce_spec h).2

theorem Valid.run (h : x.Valid) : (x.run calls).Valid := by
  induction calls generalizing x with
  | nil => exact h
  | cons c cs ih => exact ih h.call

theorem entries_run (h : x.Valid) : (x.run calls).entries =
    Slots.run key slot priority x.entries (calls.map Call.abstract) := by
  induction calls generalizing x with
  | nil => rfl
  | cons c cs ih =>
    rw [List.map_cons, Slots.run, List.foldl_cons, ← entries_call h]
    exact ih h.call

theorem offers_eq (h : x.Valid) :
    Slots.offers key slot priority (a, n) x.entries (calls.map Call.abstract) =
      (x.offers a n calls).map (Prod.mk a) := by
  induction calls generalizing x with
  | nil => rfl
  | cons c cs ih =>
    rw [List.map_cons, Slots.offers, offers, List.map_append, ← entries_call h, ih h.call]
    congr 1
    cases c with
    | removePendingNonce k => rfl
    | addPendingNonce k b m pr =>
      rw [Call.abstract, Slots.offered, offered]
      have hiff : (slot (b, ⟨k, m, pr⟩) = (a, n) ∧ key (b, ⟨k, m, pr⟩) ∉ key '' x.entries) ↔
          b = a ∧ m = n ∧ x.keyToNonce k = none := by
        rw [h.indexed.mem_key_iff, not_not, slot, Prod.mk.injEq, and_assoc]
        rfl
      by_cases hoff : b = a ∧ m = n ∧ x.keyToNonce k = none
      · rw [if_pos (hiff.mpr hoff), if_pos hoff, hoff.1]
        rfl
      · rw [if_neg fun h => hoff (hiff.mp h), if_neg hoff]
        rfl

theorem mem_slot_iff : (a, n) ∈ slot '' x.entries ↔ x.Occupied a n := by
  constructor
  · rintro ⟨⟨b, p⟩, hp, he⟩
    obtain ⟨hb, hn⟩ := Prod.mk.inj he
    obtain rfl : b = a := hb
    exact ⟨p, hp, hn⟩
  · rintro ⟨p, hp, rfl⟩
    exact ⟨(a, p), hp, rfl⟩

theorem Valid.bijOn (h : x.Valid) :
    Set.BijOn indexEntry x.entries {e | x.keyToNonce e.1 = some e.2} := by
  refine ⟨fun e he => h.indexed.of_mem he, fun p hp q hq heq => ?_,
    fun e he => (h.indexed e.1 e.2).mp he⟩
  exact h.injOn_key hp hq (Prod.mk.inj heq).1

theorem kept_foremost {p : PendingTx} (hp : p ∈ (empty.run calls).pending a) :
    ∃ free since, calls = free ++ since ∧ ¬ (empty.run free).Occupied a p.nonce ∧
      (∀ mid rest, since = mid ++ rest → mid ≠ [] →
        (empty.run (free ++ mid)).Occupied a p.nonce) ∧
      Slots.Foremost (fun q : PendingTx => q.priority.toInt) p
        ((empty.run free).offers a p.nonce since) := by
  have hempty : empty.entries = ∅ := Set.eq_empty_of_forall_notMem fun e => List.not_mem_nil
  have hrun : ∀ cs, (empty.run cs).entries =
      Slots.run key slot priority ∅ (cs.map Call.abstract) := fun cs =>
    hempty ▸ entries_run valid_empty
  have hmem : (a, p) ∈ (empty.run calls).entries := hp
  rw [hrun] at hmem
  obtain ⟨free, since, hcalls, hfree, hmid, hfore⟩ := Slots.foremost_run hmem
  obtain ⟨free, since, rfl, rfl, rfl⟩ := List.map_eq_append_iff.mp hcalls
  rw [← hrun] at hfree hfore
  refine ⟨free, since, rfl, fun h => hfree (mem_slot_iff.mpr h), ?_, ?_⟩
  · rintro mid rest rfl hne
    have hheld := hmid (mid.map _) (rest.map _) List.map_append
      fun h => hne (List.map_eq_nil_iff.mp h)
    rw [← List.map_append, ← hrun] at hheld
    exact mem_slot_iff.mp hheld
  · change Slots.Foremost priority (a, p) (Slots.offers key slot priority (a, p.nonce) _ _) at hfore
    rw [offers_eq valid_empty.run] at hfore
    exact hfore.of_map (Prod.mk_right_injective a)

end Index

end Tabi.Mempool
