import Tabi.Support.Digest
import Tabi.Support.Outcome
import Tabi.Support.Rounds

/-!
# Tools — range hashes

The database verification tool hashes the entries of a snapshot by ranges of blocks
(`tools/hash_verification/hasher/xor_hasher.go`).
-/

namespace Tabi.Tools

open Support

structure RawSnapshotNode where
  key : Bytes
  value : Bytes
  version : Int64

structure XorHashCalculator where
  numBlocksPerWorker : Int64
  numOfWorkers : Nat
  sum256 : Bytes → FixedBytes 32

def serialize (node : RawSnapshotNode) : Bytes :=
  node.key ++ node.value ++ (beBytes 8 node.version.toUInt64.toNat).reverse

/-- What the goroutines share: the entries still to be read from `DataCh`, the entries waiting in
the channels of the workers, and the `hashResult` of each worker. -/
structure Hashing (n : Nat) where
  dataCh : List RawSnapshotNode
  channels : Fin n → List RawSnapshotNode
  hashResults : Fin n → Option Bytes

def Hashing.begun {n : Nat} (dataCh : List RawSnapshotNode) : Hashing n :=
  ⟨dataCh, fun _ => [], fun _ => none⟩

def Hashing.finished {n : Nat} (s : Hashing n) : Bool :=
  s.dataCh.isEmpty && (List.finRange n).all fun w => (s.channels w).isEmpty

inductive Goroutine (n : Nat) where
  | dispatcher
  | worker (w : Fin n)

namespace XorHashCalculator

variable (x : XorHashCalculator)

def hashSingle (data : Bytes) : Bytes := (x.sum256 data).bytes

def hashTwo (dataA dataB : Bytes) : Outcome Bytes :=
  if dataA.length ≠ dataB.length then
    .error (.raised "Expecting both data to have equal length for computing a XoR hash")
  else .ok (xorBytes dataA dataB)

def absorb (hashResult : Option Bytes) (item : RawSnapshotNode) : Outcome (Option Bytes) :=
  let entryHash := x.hashSingle (serialize item)
  match hashResult with
  | none => .ok (some entryHash)
  | some r => do return some (← hashTwo r entryHash)

/-- A turn of the goroutine that reads `DataCh`.  The channels hold 1000 entries; with nothing more
to read it closes them and waits. -/
def dispatch (s : Hashing x.numOfWorkers) : Outcome (Hashing x.numOfWorkers) :=
  match s.dataCh with
  | [] => .ok s
  | data :: rest =>
    if x.numBlocksPerWorker = 0 then .error .divisionByZero
    else
      let index := (data.version / x.numBlocksPerWorker).toInt
      if h : 0 ≤ index ∧ index.toNat < x.numOfWorkers then
        let w : Fin x.numOfWorkers := ⟨index.toNat, h.2⟩
        if (s.channels w).length < 1000 then
          .ok { s with
            dataCh := rest
            channels := Function.update s.channels w (s.channels w ++ [data]) }
        else .ok s
      else .error .indexOutOfRange

def work (s : Hashing x.numOfWorkers) (w : Fin x.numOfWorkers) : Outcome (Hashing x.numOfWorkers) :=
  match s.channels w with
  | [] => .ok s
  | item :: rest => do
    let hashResult ← x.absorb (s.hashResults w) item
    .ok { s with
      channels := Function.update s.channels w rest
      hashResults := Function.update s.hashResults w hashResult }

def step (s : Hashing x.numOfWorkers) : Goroutine x.numOfWorkers → Outcome (Hashing x.numOfWorkers)
  | .dispatcher => x.dispatch s
  | .worker w => x.work s w

def len (b : Option Bytes) : Nat := (b.getD []).length

def join (previous current : Option Bytes) : Outcome (Option Bytes) :=
  if 0 < len previous ∧ 0 < len current then
    return some (← hashTwo (previous.getD []) (current.getD []))
  else if 0 < len previous ∧ len current = 0 then .ok previous
  else .ok current

def joinFrom (previous : Option Bytes) : List (Option Bytes) → Outcome (List (Option Bytes))
  | [] => .ok []
  | current :: rest => do
    let current ← join previous current
    return current :: (← joinFrom current rest)

def joinAll : List (Option Bytes) → Outcome (List (Option Bytes))
  | [] => .ok []
  | first :: rest => do return first :: (← joinFrom first rest)

/-- `ComputeHashes` under a schedule of its goroutines; nothing while they still have work. -/
def computeHashes (schedule : List (Goroutine x.numOfWorkers)) (dataCh : List RawSnapshotNode) :
    Outcome (Option (List (Option Bytes))) := do
  let s ← schedule.foldlM x.step (.begun dataCh)
  if s.finished then return some (← joinAll (List.ofFn s.hashResults))
  else return none

def digest (items : List RawSnapshotNode) : Digest 32 :=
  (items.map fun item => .of (x.sum256 (serialize item))).sum

theorem digest_append (xs ys : List RawSnapshotNode) :
    x.digest (xs ++ ys) = x.digest xs + x.digest ys := by
  simp [digest]

theorem digest_cons (item : RawSnapshotNode) (xs : List RawSnapshotNode) :
    x.digest (item :: xs) = .of (x.sum256 (serialize item)) + x.digest xs := by
  simp [digest]

theorem hashTwo_bytes (a b : FixedBytes 32) : hashTwo a.bytes b.bytes = .ok (a.xor b).bytes := by
  simp [hashTwo, a.length_eq, b.length_eq, FixedBytes.xor]

theorem absorb_bytes (d : Digest 32) (item : RawSnapshotNode) :
    x.absorb d.bytes item = .ok (d + .of (x.sum256 (serialize item))).bytes := by
  rcases d.eq_zero_or_of with rfl | ⟨a, rfl⟩
  · rw [zero_add]
    rfl
  · rw [Digest.of_add_of, Digest.bytes_of, Digest.bytes_of, absorb, hashSingle, hashTwo_bytes]
    rfl

theorem join_bytes (p d : Digest 32) : join p.bytes d.bytes = .ok (p + d).bytes := by
  rcases p.eq_zero_or_of with rfl | ⟨a, rfl⟩
  · rw [zero_add]
    simp [join, len, Digest.bytes_zero]
  · have ha : 0 < a.bytes.length := by simp [a.length_eq]
    rcases d.eq_zero_or_of with rfl | ⟨b, rfl⟩
    · rw [add_zero]
      simp [join, len, Digest.bytes_zero, Digest.bytes_of, ha]
    · have hb : 0 < b.bytes.length := by simp [b.length_eq]
      simp [join, len, Digest.bytes_of, Digest.of_add_of, ha, hb, hashTwo_bytes]

theorem joinFrom_bytes (p : Digest 32) (ds : List (Digest 32)) :
    joinFrom p.bytes (ds.map Digest.bytes) = .ok ((sums p ds).map Digest.bytes) := by
  induction ds generalizing p with
  | nil => rfl
  | cons d ds ih =>
    rw [List.map_cons, joinFrom, join_bytes, Outcome.ok_bind, ih, Outcome.ok_bind]
    rfl

theorem joinAll_bytes (ds : List (Digest 32)) :
    joinAll (ds.map Digest.bytes) = .ok ((sums 0 ds).map Digest.bytes) := by
  cases ds with
  | nil => rfl
  | cons d ds =>
    rw [List.map_cons, joinAll, joinFrom_bytes, Outcome.ok_bind, sums, zero_add]
    rfl

def bucket (node : RawSnapshotNode) : Nat := (node.version / x.numBlocksPerWorker).toInt.toNat

def Indexed (node : RawSnapshotNode) : Prop :=
  0 ≤ node.version / x.numBlocksPerWorker ∧
    (node.version / x.numBlocksPerWorker).toInt < x.numOfWorkers

variable {x}

variable {node : RawSnapshotNode}

theorem Indexed.nonneg (h : x.Indexed node) :
    0 ≤ (node.version / x.numBlocksPerWorker).toInt := Int64.le_iff_toInt_le.mp h.1

theorem Indexed.bucket_lt (h : x.Indexed node) : x.bucket node < x.numOfWorkers := by
  have hlt := h.2
  have hnonneg := h.nonneg
  unfold bucket
  omega

inductive Moves (s : Hashing x.numOfWorkers) :
    Goroutine x.numOfWorkers → Hashing x.numOfWorkers → Prop where
  | send {data : RawSnapshotNode} {rest : List RawSnapshotNode} {w : Fin x.numOfWorkers}
      (hd : s.dataCh = data :: rest) (hw : x.bucket data = w) :
      Moves s .dispatcher { s with
        dataCh := rest
        channels := Function.update s.channels w (s.channels w ++ [data]) }
  | block {w : Fin x.numOfWorkers} (hw : ¬(s.channels w).length < 1000) : Moves s .dispatcher s
  | close (hd : s.dataCh = []) : Moves s .dispatcher s
  | hash {w : Fin x.numOfWorkers} {item : RawSnapshotNode} {rest : List RawSnapshotNode}
      {d : Digest 32} (hc : s.channels w = item :: rest) (hr : s.hashResults w = d.bytes) :
      Moves s (.worker w) { s with
        channels := Function.update s.channels w rest
        hashResults := Function.update s.hashResults w
          (d + .of (x.sum256 (serialize item))).bytes }
  | wait {w : Fin x.numOfWorkers} (hc : s.channels w = []) : Moves s (.worker w) s

structure Inv (stream : List RawSnapshotNode) (s : Hashing x.numOfWorkers) : Prop where
  indexed : ∀ node ∈ s.dataCh, x.Indexed node
  conserved : ∀ w : Fin x.numOfWorkers, ∃ d : Digest 32, s.hashResults w = d.bytes ∧
    d + x.digest (s.channels w) + x.digest (s.dataCh.filter fun node => x.bucket node = w) =
      x.digest (stream.filter fun node => x.bucket node = w)

variable {stream : List RawSnapshotNode} {s s' : Hashing x.numOfWorkers}
  {g : Goroutine x.numOfWorkers}

theorem Inv.begun (h : ∀ node ∈ stream, x.Indexed node) :
    Inv stream (.begun stream : Hashing x.numOfWorkers) where
  indexed := h
  conserved w := ⟨0, rfl, by simp [Hashing.begun, digest]⟩

theorem dispatch_moves (hr : 0 < x.numBlocksPerWorker) (h : Inv stream s) :
    ∃ s', x.dispatch s = .ok s' ∧ Moves s .dispatcher s' := by
  have hne : x.numBlocksPerWorker ≠ 0 := by
    rintro e
    rw [e] at hr
    exact Int64.lt_irrefl hr
  cases hd : s.dataCh with
  | nil => exact ⟨s, by simp [dispatch, hd], .close hd⟩
  | cons data rest =>
    have hix := h.indexed data (by simp [hd])
    have hindex : 0 ≤ (data.version / x.numBlocksPerWorker).toInt ∧
        (data.version / x.numBlocksPerWorker).toInt.toNat < x.numOfWorkers :=
      ⟨hix.nonneg, hix.bucket_lt⟩
    by_cases hlen : (s.channels ⟨x.bucket data, hix.bucket_lt⟩).length < 1000
    · refine ⟨_, ?_, .send (w := ⟨x.bucket data, hix.bucket_lt⟩) hd rfl⟩
      simp only [dispatch, hd, if_neg hne, dif_pos hindex]
      exact if_pos hlen
    · refine ⟨s, ?_, .block hlen⟩
      simp only [dispatch, hd, if_neg hne, dif_pos hindex]
      exact if_neg hlen

theorem work_moves (h : Inv stream s) (w : Fin x.numOfWorkers) :
    ∃ s', x.work s w = .ok s' ∧ Moves s (.worker w) s' := by
  cases hc : s.channels w with
  | nil => exact ⟨s, by simp [work, hc], .wait hc⟩
  | cons item rest =>
    obtain ⟨d, hd, -⟩ := h.conserved w
    refine ⟨_, ?_, .hash hc hd⟩
    simp [work, hc, hd, absorb_bytes]

theorem step_moves (hr : 0 < x.numBlocksPerWorker) (h : Inv stream s)
    (g : Goroutine x.numOfWorkers) : ∃ s', x.step s g = .ok s' ∧ Moves s g s' := by
  cases g with
  | dispatcher => exact dispatch_moves hr h
  | worker w => exact work_moves h w

theorem digest_filter_cons (data : RawSnapshotNode) (rest : List RawSnapshotNode) (k : Nat) :
    x.digest ((data :: rest).filter fun node => x.bucket node = k) =
      (if x.bucket data = k then .of (x.sum256 (serialize data)) else 0) +
        x.digest (rest.filter fun node => x.bucket node = k) := by
  by_cases e : x.bucket data = k
  · simp [e, digest_cons]
  · simp [e]

theorem Inv.step (h : Inv stream s) (hm : Moves s g s') : Inv stream s' := by
  cases hm with
  | block | close | wait => exact h
  | @send data rest w hd hw =>
    refine ⟨fun node hnode => h.indexed node (by simp [hd, hnode]), fun v => ?_⟩
    obtain ⟨d, hr, hsum⟩ := h.conserved v
    refine ⟨d, hr, ?_⟩
    rw [hd, digest_filter_cons] at hsum
    rw [← hsum]
    by_cases e : v = w
    · subst e
      simp only [Function.update_self, digest_append, digest_cons, hw, if_true]
      simp [digest, add_assoc]
    · have hne : x.bucket data ≠ v := fun hv => e (Fin.ext (hv.symm.trans hw))
      simp [Function.update_of_ne e, hne]
  | @hash w item rest d hc hr =>
    refine ⟨h.indexed, fun v => ?_⟩
    obtain ⟨d', hr', hsum⟩ := h.conserved v
    by_cases e : v = w
    · subst e
      obtain rfl : d = d' := Digest.bytes_injective (hr.symm.trans hr')
      refine ⟨_, Function.update_self .., ?_⟩
      simp only [← hsum, hc, digest_cons, Function.update_self, add_assoc]
    · refine ⟨d', (Function.update_of_ne e ..).trans hr', ?_⟩
      simp only [← hsum, Function.update_of_ne e]

def Step (s : Hashing x.numOfWorkers) (g : Goroutine x.numOfWorkers) (s' : Hashing x.numOfWorkers) :
    Prop := x.step s g = .ok s'

theorem Step.moves (hs : Step s g s') (hr : 0 < x.numBlocksPerWorker) (h : Inv stream s) :
    Moves s g s' := by
  obtain ⟨s₁, hs₁, hm⟩ := step_moves hr h g
  obtain rfl : s₁ = s' := Except.ok.inj (hs₁.symm.trans hs)
  exact hm

theorem run_ok (hr : 0 < x.numBlocksPerWorker) (h : Inv stream s)
    (schedule : List (Goroutine x.numOfWorkers)) :
    ∃ s', schedule.foldlM x.step s = .ok s' ∧ Trace Step s schedule s' ∧ Inv stream s' := by
  induction schedule generalizing s with
  | nil => exact ⟨s, rfl, .nil, h⟩
  | cons g schedule ih =>
    obtain ⟨s₁, hs, hm⟩ := step_moves hr h g
    obtain ⟨s', hrun, ht, h'⟩ := ih (h.step hm)
    refine ⟨s', ?_, (Trace.nil.snoc hs).append ht, h'⟩
    rw [List.foldlM_cons, hs, Outcome.ok_bind, hrun]

def turnsLeft {n : Nat} (s : Hashing n) : Nat := 2 * s.dataCh.length + ∑ w, (s.channels w).length

theorem finished_iff {n : Nat} {s : Hashing n} :
    s.finished = true ↔ s.dataCh = [] ∧ ∀ w, s.channels w = [] := by
  simp [Hashing.finished]

theorem finished_of_turnsLeft {n : Nat} {s : Hashing n} (h : turnsLeft s = 0) :
    s.finished = true := by
  obtain ⟨hd, hc⟩ := Nat.add_eq_zero_iff.mp h
  refine finished_iff.mpr ⟨List.length_eq_zero_iff.mp (by omega), fun w => ?_⟩
  exact List.length_eq_zero_iff.mp (Finset.sum_eq_zero_iff.mp hc w (Finset.mem_univ w))

def HasWork : Goroutine x.numOfWorkers → Hashing x.numOfWorkers → Prop
  | .dispatcher, s => s.dataCh ≠ [] ∧ ∀ w, s.channels w = []
  | .worker w, s => s.channels w ≠ []

theorem Moves.idle_or_lt (hm : Moves s g s') :
    (s' = s ∧ ¬HasWork g s) ∨ turnsLeft s' < turnsLeft s := by
  cases hm with
  | @send data rest w hd hw =>
    have hsum := sum_update List.length s.channels w (s.channels w ++ [data])
    simp only [turnsLeft, hd, List.length_cons, List.length_append, List.length_nil] at hsum ⊢
    omega
  | @block w hw => exact .inl ⟨rfl, fun hg => hw (by simp [hg.2 w])⟩
  | close hd => exact .inl ⟨rfl, fun hg => hg.1 hd⟩
  | @hash w item rest d hc hr =>
    have hsum := sum_update List.length s.channels w rest
    simp only [turnsLeft, hc, List.length_cons] at hsum ⊢
    omega
  | wait hc => exact .inl ⟨rfl, fun hg => hg hc⟩

theorem turnsLeft_progress (hr : 0 < x.numBlocksPerWorker) :
    Progress Step (Inv (x := x) stream) turnsLeft HasWork where
  keep h hs := h.step (hs.moves hr h)
  le h hs := by
    rcases (hs.moves hr h).idle_or_lt with ⟨rfl, -⟩ | hlt
    · exact le_rfl
    · exact hlt.le
  exists_helpful {s} h hpos := by
    by_cases hc : ∀ w, s.channels w = []
    · refine ⟨.dispatcher, fun hd => ?_, hc⟩
      simp [turnsLeft, hd, hc] at hpos
    · push Not at hc
      obtain ⟨w, hw⟩ := hc
      exact ⟨.worker w, hw⟩
  stay h ha _ hs := by
    rcases (hs.moves hr h).idle_or_lt with ⟨rfl, -⟩ | hlt
    · exact .inl ha
    · exact .inr hlt
  act h ha hs := by
    rcases (hs.moves hr h).idle_or_lt with ⟨-, hidle⟩ | hlt
    · exact absurd ha hidle
    · exact hlt

/-- **The hashes of the ranges**: the `i`-th is the digest of the entries below the end of the
`i`-th range, and nil when there are none. -/
structure RangeHashes (x : XorHashCalculator) (stream : List RawSnapshotNode)
    (hashes : List (Option Bytes)) : Prop where
  length : hashes.length = x.numOfWorkers
  hash : ∀ i < x.numOfWorkers, hashes[i]? = some (x.digest (stream.filter fun node =>
    node.version.toInt < (i + 1) * x.numBlocksPerWorker.toInt)).bytes
  empty : ∀ i < x.numOfWorkers, hashes[i]? = some none ↔
    ∀ node ∈ stream, ¬node.version.toInt < (i + 1) * x.numBlocksPerWorker.toInt

theorem Indexed.bucket_lt_iff (h : x.Indexed node) (hr : 0 < x.numBlocksPerWorker) (i : Nat) :
    x.bucket node < i + 1 ↔ node.version.toInt < (i + 1) * x.numBlocksPerWorker.toInt := by
  have hpos : 0 < x.numBlocksPerWorker.toInt := Int64.lt_iff_toInt_lt.mp hr
  have hdiv : (node.version / x.numBlocksPerWorker).toInt =
      node.version.toInt.tdiv x.numBlocksPerWorker.toInt := by
    refine Int64.toInt_div_of_ne_right _ _ fun e => ?_
    rw [e] at hpos
    exact absurd hpos (by decide)
  have hnonneg := h.nonneg
  rw [bucket, hdiv] at *
  rcases le_or_gt 0 node.version.toInt with hv | hv
  · rw [Int.tdiv_eq_ediv_of_nonneg hv] at hnonneg ⊢
    rw [← Int.ediv_lt_iff_lt_mul hpos]
    omega
  · have hzero := Int.tdiv_nonneg (neg_nonneg.mpr hv.le) hpos.le
    rw [Int.neg_tdiv] at hzero
    have hend : 0 ≤ ((i : ℤ) + 1) * x.numBlocksPerWorker.toInt :=
      Int.mul_nonneg (by omega) hpos.le
    exact ⟨fun _ => hv.trans_le hend, fun _ => by omega⟩

theorem digest_perm {xs ys : List RawSnapshotNode} (h : xs.Perm ys) : x.digest xs = x.digest ys :=
  (h.map _).sum_eq

theorem Inv.hashResults_of_finished (h : Inv stream s) (hf : s.finished = true) :
    List.ofFn s.hashResults = ((List.range x.numOfWorkers).map fun j =>
      x.digest (stream.filter fun node => x.bucket node = j)).map Digest.bytes := by
  obtain ⟨hd, hc⟩ := finished_iff.mp hf
  refine List.ext_getElem? fun i => ?_
  by_cases hi : i < x.numOfWorkers
  · obtain ⟨d, hres, hsum⟩ := h.conserved ⟨i, hi⟩
    have hwhole : d = x.digest (stream.filter fun node => x.bucket node = i) := by
      rw [← hsum, hd, hc]
      simp [digest]
    simp [hi, hres, hwhole]
  · simp [hi]

theorem rangeHashes_sums (hr : 0 < x.numBlocksPerWorker) (h : ∀ node ∈ stream, x.Indexed node) :
    RangeHashes x stream ((sums 0 ((List.range x.numOfWorkers).map fun j =>
      x.digest (stream.filter fun node => x.bucket node = j))).map Digest.bytes) := by
  have hhash : ∀ i < x.numOfWorkers, ((sums 0 ((List.range x.numOfWorkers).map fun j =>
      x.digest (stream.filter fun node => x.bucket node = j))).map Digest.bytes)[i]? =
      some (x.digest (stream.filter fun node =>
        node.version.toInt < (i + 1) * x.numBlocksPerWorker.toInt)).bytes := by
    intro i hi
    rw [List.getElem?_map, getElem?_sums (by simpa using hi), Option.map_some, zero_add,
      ← List.map_take, List.take_range, Nat.min_eq_left hi]
    have hbuckets := sum_buckets (fun item => Digest.of (x.sum256 (serialize item))) x.bucket
      stream (i + 1)
    have hfilter : stream.filter (fun node => x.bucket node < i + 1) =
        stream.filter fun node => node.version.toInt < (i + 1) * x.numBlocksPerWorker.toInt := by
      refine List.filter_congr fun node hnode => ?_
      rw [decide_eq_decide]
      exact (h node hnode).bucket_lt_iff hr i
    rw [hfilter] at hbuckets
    exact congrArg (some ∘ Digest.bytes) hbuckets
  refine ⟨by simp [length_sums], hhash, fun i hi => ?_⟩
  rw [hhash i hi, Option.some_inj, Digest.bytes_eq_none_iff, digest, Digest.sum_of_eq_zero_iff,
    List.filter_eq_nil_iff]
  simp

theorem RangeHashes.perm {stream' : List RawSnapshotNode} {hashes hashes' : List (Option Bytes)}
    (hp : stream.Perm stream') (h : RangeHashes x stream hashes)
    (h' : RangeHashes x stream' hashes') : hashes = hashes' := by
  refine List.ext_getElem? fun i => ?_
  by_cases hi : i < x.numOfWorkers
  · rw [h.hash i hi, h'.hash i hi, digest_perm (hp.filter _)]
  · rw [List.getElem?_eq_none (by rw [h.length]; omega),
      List.getElem?_eq_none (by rw [h'.length]; omega)]

theorem computeHashes_eq (hr : 0 < x.numBlocksPerWorker) (h : ∀ node ∈ stream, x.Indexed node)
    (schedule : List (Goroutine x.numOfWorkers)) :
    ∃ s, Trace Step (.begun stream) schedule s ∧
      ((s.finished = false ∧ x.computeHashes schedule stream = .ok none) ∨
       ∃ hashes, x.computeHashes schedule stream = .ok (some hashes) ∧
         RangeHashes x stream hashes) := by
  obtain ⟨s, hrun, ht, hI⟩ := run_ok hr (Inv.begun h) schedule
  refine ⟨s, ht, ?_⟩
  rw [computeHashes, hrun, Outcome.ok_bind]
  cases hf : s.finished with
  | false => exact .inl ⟨rfl, rfl⟩
  | true =>
    refine .inr ⟨_, ?_, rangeHashes_sums hr h⟩
    rw [if_pos rfl, hI.hashResults_of_finished hf, joinAll_bytes]
    rfl

theorem rangeHashes_of_computes (hr : 0 < x.numBlocksPerWorker)
    (h : ∀ node ∈ stream, x.Indexed node) {schedule : List (Goroutine x.numOfWorkers)}
    {hashes : List (Option Bytes)} (e : x.computeHashes schedule stream = .ok (some hashes)) :
    RangeHashes x stream hashes := by
  obtain ⟨s, -, ⟨-, e'⟩ | ⟨hashes', e', hrange⟩⟩ := computeHashes_eq hr h schedule
  · rw [e'] at e
    cases e
  · rw [e'] at e
    cases e
    exact hrange

/-- **Range hashing**: for a positive block range and entries whose version divided by it is the
number of a worker, no schedule of the goroutines panics; one that comes to its end gives the
hashes of the ranges, and one of enough rounds does come to its end; and streams that are
permutations of each other have the same hashes, under whatever schedules. -/
theorem computeHashes_ranges (x : XorHashCalculator) (hr : 0 < x.numBlocksPerWorker)
    (stream : List RawSnapshotNode) (h : ∀ node ∈ stream, x.Indexed node) :
    (∀ schedule, x.computeHashes schedule stream = .ok none ∨
      ∃ hashes, x.computeHashes schedule stream = .ok (some hashes) ∧
        RangeHashes x stream hashes) ∧
    (∀ rounds : List (List (Goroutine x.numOfWorkers)), (∀ ρ ∈ rounds, ∀ g, g ∈ ρ) →
      2 * stream.length ≤ rounds.length →
      ∃ hashes, x.computeHashes rounds.flatten stream = .ok (some hashes) ∧
        RangeHashes x stream hashes) ∧
    ∀ stream' schedule schedule' hashes hashes', stream.Perm stream' →
      x.computeHashes schedule stream = .ok (some hashes) →
      x.computeHashes schedule' stream' = .ok (some hashes') → hashes = hashes' := by
  refine ⟨?_, ?_, ?_⟩
  · intro schedule
    obtain ⟨s, -, ⟨-, e⟩ | hhashes⟩ := computeHashes_eq hr h schedule
    · exact .inl e
    · exact .inr hhashes
  · intro rounds hrounds hlen
    obtain ⟨s, ht, ⟨hf, -⟩ | hhashes⟩ := computeHashes_eq hr h rounds.flatten
    · have hle := (turnsLeft_progress hr).rounds (fun ρ hρ a _ _ => hrounds ρ hρ a)
        (Inv.begun h) ht
      have hbegun : turnsLeft (.begun stream : Hashing x.numOfWorkers) = 2 * stream.length := by
        simp [turnsLeft, Hashing.begun]
      rw [finished_of_turnsLeft (by omega)] at hf
      cases hf
    · exact hhashes
  · intro stream' schedule schedule' hashes hashes' hp e e'
    have h' : ∀ node ∈ stream', x.Indexed node := fun node hnode => h node (hp.mem_iff.mpr hnode)
    exact (rangeHashes_of_computes hr h e).perm hp (rangeHashes_of_computes hr h' e')

def sample (numBlocksPerWorker : Int64) (numOfWorkers : Nat) : XorHashCalculator :=
  ⟨numBlocksPerWorker, numOfWorkers, FixedBytes.ofBytes 32⟩

theorem computeHashes_ranges_two :
    (0 : Int64) < 10 ∧ (∀ node ∈ [⟨[1], [2], 12⟩, ⟨[1], [3], 7⟩], (sample 10 2).Indexed node) ∧
    ∀ schedule, (sample 10 2).computeHashes schedule [⟨[1], [2], 12⟩, ⟨[1], [3], 7⟩] = .ok none ∨
      ∃ hashes, (sample 10 2).computeHashes schedule [⟨[1], [2], 12⟩, ⟨[1], [3], 7⟩] =
          .ok (some hashes) ∧
        RangeHashes (sample 10 2) [⟨[1], [2], 12⟩, ⟨[1], [3], 7⟩] hashes := by
  have hindexed : ∀ node ∈ [⟨[1], [2], 12⟩, ⟨[1], [3], 7⟩], (sample 10 2).Indexed node := by
    simp only [List.forall_mem_cons, Indexed, sample]
    decide
  exact ⟨by decide, hindexed, (computeHashes_ranges (sample 10 2) (by decide) _ hindexed).1⟩

/-- A quotient below the number of workers is not enough: at version −5 and range 5 it is −1, and
sending panics; and with a negative range the hash of the first range has an entry that is not
below its end. -/
theorem computeHashes_outside :
    ((-5 : Int64) / 5).toInt < 1 ∧
    (sample 5 1).computeHashes [.dispatcher] [⟨[], [], -5⟩] = .error .indexOutOfRange ∧
    ((5 : Int64) / -10).toInt < 1 ∧ ¬(5 : Int64).toInt < (0 + 1) * (-10 : Int64).toInt ∧
    ∃ hash, (sample (-10) 1).computeHashes [.dispatcher, .worker ⟨0, Nat.one_pos⟩] [⟨[], [], 5⟩] =
      .ok (some [some hash]) :=
  ⟨by decide, rfl, by decide, by decide, _, rfl⟩

end XorHashCalculator

end Tabi.Tools
