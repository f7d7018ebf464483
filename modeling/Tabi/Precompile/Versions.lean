import Mathlib.Data.List.Induction
import Tabi.Chain.Types

/-!
# Precompile — versions

A custom precompile is kept in several versions, each under the name of the upgrade that brought it
(`x/evm/keeper/keeper.go`).
-/

namespace Tabi.Precompile.Versions

open Support

variable {P : Type}

structure VersionedPrecompiles (P : Type) where
  upgrades : List String
  contract : String → Option P
  nodup : upgrades.Nodup
  mem_upgrades : ∀ u, u ∈ upgrades ↔ (contract u).isSome

structure DoneHeights where
  getDoneHeight : String → Int64
  nonneg : ∀ u, 0 ≤ getDoneHeight u

/-- `map[common.Address]vm.PrecompiledContract`: a missing key, or a contract that may be nil. -/
abbrev PrecompileMap (P : Type) := Address → Option (Option P)

structure Keeper (P : Type) where
  customPrecompiles : Address → Option (VersionedPrecompiles P)
  latestUpgrade : String
  latestCustomPrecompiles : PrecompileMap P

def setCustomPrecompiles (cp : Address → Option (VersionedPrecompiles P)) (latestUpgrade : String) :
    Keeper P where
  customPrecompiles := cp
  latestUpgrade := latestUpgrade
  latestCustomPrecompiles addr := (cp addr).map fun versioned => versioned.contract latestUpgrade

structure Ctx where
  isTracing : Bool
  blockHeight : Int64
  upgrades : DoneHeights

structure Selection where
  mostRecentUpgradeHeight : Int64
  noForkHistory : Bool
  version : Option String

def visit (height : Int64) (done : DoneHeights) (s : Selection) (upgrade : String) : Selection :=
  let upgradeHeight := done.getDoneHeight upgrade
  let noForkHistory := if upgradeHeight ≠ 0 then false else s.noForkHistory
  -- requested height hasn't seen this upgrade version yet.
  if height < upgradeHeight then { s with noForkHistory }
  else if upgradeHeight > s.mostRecentUpgradeHeight then
    { mostRecentUpgradeHeight := upgradeHeight, noForkHistory, version := some upgrade }
  else { s with noForkHistory }

def scan (height : Int64) (done : DoneHeights) (upgrades : List String) : Selection :=
  upgrades.foldl (visit height done) ⟨0, true, none⟩

def versionAt (latestUpgrade : String) (height : Int64) (done : DoneHeights)
    (versioned : VersionedPrecompiles P) : Option String :=
  let s := scan height done versioned.upgrades
  if s.noForkHistory then some latestUpgrade else s.version

/-- `GetCustomPrecompilesVersions`: each address is written in its own turn. -/
def getCustomPrecompilesVersions (k : Keeper P) (ctx : Ctx) : Address → Option String := fun addr =>
  (k.customPrecompiles addr).bind (versionAt k.latestUpgrade ctx.blockHeight ctx.upgrades)

/-- `CustomPrecompiles`.  A key that is missing in `versions` reads as the empty name. -/
def customPrecompiles (k : Keeper P) (ctx : Ctx) : PrecompileMap P :=
  if !ctx.isTracing then k.latestCustomPrecompiles
  else
    let versions := getCustomPrecompilesVersions k ctx
    fun addr => (k.customPrecompiles addr).map fun versioned =>
      versioned.contract ((versions addr).getD "")

section Scan

variable {height : Int64} {done : DoneHeights} {us : List String} {u : String}

def DoneBy (height : Int64) (done : DoneHeights) (u : String) : Prop :=
  done.getDoneHeight u ≠ 0 ∧ done.getDoneHeight u ≤ height

structure LatestOf (height : Int64) (done : DoneHeights) (us : List String) (u : String) :
    Prop where
  mem : u ∈ us
  doneBy : DoneBy height done u
  le : ∀ v ∈ us, DoneBy height done v → done.getDoneHeight v ≤ done.getDoneHeight u

def Chosen (height : Int64) (done : DoneHeights) (us : List String) (recent : Int64) :
    Option String → Prop
  | none => recent = 0 ∧ ∀ u ∈ us, ¬DoneBy height done u
  | some u => recent = done.getDoneHeight u ∧ LatestOf height done us u

theorem LatestOf.snoc {v : String} (h : LatestOf height done us u)
    (hv : DoneBy height done v → done.getDoneHeight v ≤ done.getDoneHeight u) :
    LatestOf height done (us ++ [v]) u := by
  refine ⟨List.mem_append_left _ h.mem, h.doneBy, fun w hw hd => ?_⟩
  rcases List.mem_append.mp hw with hw | hw
  · exact h.le w hw hd
  · obtain rfl := List.mem_singleton.mp hw
    exact hv hd

variable {recent : Int64} {version : Option String}

theorem Chosen.skip (h : Chosen height done us recent version) (hu : ¬DoneBy height done u) :
    Chosen height done (us ++ [u]) recent version := by
  cases version with
  | none =>
    refine ⟨h.1, fun v hv => ?_⟩
    rcases List.mem_append.mp hv with hv | hv
    · exact h.2 v hv
    · rwa [List.mem_singleton.mp hv]
  | some w => exact ⟨h.1, h.2.snoc fun hd => absurd hd hu⟩

theorem Chosen.take (h : Chosen height done us recent version) (hu : DoneBy height done u)
    (hlt : recent < done.getDoneHeight u) :
    Chosen height done (us ++ [u]) (done.getDoneHeight u) (some u) := by
  refine ⟨rfl, List.mem_append_right _ (List.mem_singleton_self u), hu, fun v hv hd => ?_⟩
  rcases List.mem_append.mp hv with hv | hv
  · cases version with
    | none => exact absurd hd (h.2 v hv)
    | some w => exact Int64.le_trans (h.1 ▸ h.2.le v hv hd) (Int64.le_of_lt hlt)
  · rw [List.mem_singleton.mp hv]
    exact Int64.le_refl _

theorem Chosen.keep (h : Chosen height done us recent version) (hle : done.getDoneHeight u ≤ recent)
    : Chosen height done (us ++ [u]) recent version := by
  cases version with
  | none =>
    refine h.skip fun hu => hu.1 ?_
    exact Int64.le_antisymm (h.1 ▸ hle) (done.nonneg u)
  | some w => exact ⟨h.1, h.2.snoc fun _ => h.1 ▸ hle⟩

theorem visit_noForkHistory {s : Selection} :
    (visit height done s u).noForkHistory = true ↔
      done.getDoneHeight u = 0 ∧ s.noForkHistory = true := by
  by_cases e : done.getDoneHeight u = 0
  · simp only [visit, e]
    split_ifs <;> simp_all
  · simp only [visit]
    split_ifs <;> simp [e]

theorem Chosen.visit {s : Selection}
    (h : Chosen height done us s.mostRecentUpgradeHeight s.version) :
    Chosen height done (us ++ [u]) (visit height done s u).mostRecentUpgradeHeight
      (visit height done s u).version := by
  by_cases e : height < done.getDoneHeight u
  · have hu : ¬DoneBy height done u := fun hu => Int64.not_le.mpr e hu.2
    simpa [Versions.visit, e] using h.skip hu
  · by_cases e' : s.mostRecentUpgradeHeight < done.getDoneHeight u
    · have hu : DoneBy height done u := by
        refine ⟨fun h0 => ?_, Int64.not_lt.mp e⟩
        have hneg : s.mostRecentUpgradeHeight < 0 := h0 ▸ e'
        cases hv : s.version with
        | none => rw [hv] at h; exact absurd (h.1 ▸ hneg) (Int64.lt_irrefl)
        | some w =>
          rw [hv] at h
          exact Int64.not_le.mpr hneg (h.1 ▸ done.nonneg w)
      simpa [Versions.visit, e, e'] using h.take hu e'
    · simpa [Versions.visit, e, e'] using h.keep (Int64.not_lt.mp e')

theorem scan_chosen (height : Int64) (done : DoneHeights) (us : List String) :
    ((scan height done us).noForkHistory = true ↔ ∀ u ∈ us, done.getDoneHeight u = 0) ∧
      Chosen height done us (scan height done us).mostRecentUpgradeHeight
        (scan height done us).version := by
  induction us using List.reverseRecOn with
  | nil => exact ⟨by simp [scan], rfl, List.forall_mem_nil _⟩
  | append_singleton us u ih =>
    have hs : scan height done (us ++ [u]) = visit height done (scan height done us) u := by
      simp [scan]
    rw [hs]
    refine ⟨?_, ih.2.visit⟩
    rw [visit_noForkHistory, ih.1]
    simp [or_imp, forall_and, and_comm]

end Scan

variable {height : Int64} {done : DoneHeights} {versioned : VersionedPrecompiles P}
  {latestUpgrade : String}

theorem versionAt_of_doneBy {u : String} (latestUpgrade : String) (hu : u ∈ versioned.upgrades)
    (hd : DoneBy height done u) :
    ∃ v, LatestOf height done versioned.upgrades v ∧
      versionAt latestUpgrade height done versioned = some v := by
  obtain ⟨hflag, hchosen⟩ := scan_chosen height done versioned.upgrades
  have hfalse : ¬(scan height done versioned.upgrades).noForkHistory = true :=
    fun h => hd.1 (hflag.mp h u hu)
  cases hv : (scan height done versioned.upgrades).version with
  | none => rw [hv] at hchosen; exact absurd hd (hchosen.2 u hu)
  | some v =>
    rw [hv] at hchosen
    exact ⟨v, hchosen.2, by simp [versionAt, hfalse, hv]⟩

theorem versionAt_of_notDone (h : ∀ u ∈ versioned.upgrades, done.getDoneHeight u = 0) :
    versionAt latestUpgrade height done versioned = some latestUpgrade := by
  simp [versionAt, (scan_chosen height done versioned.upgrades).1.mpr h]

theorem version_cases (height : Int64) (done : DoneHeights) (versioned : VersionedPrecompiles P) :
    (∃ u ∈ versioned.upgrades, DoneBy height done u) ∨
    (∀ u ∈ versioned.upgrades, done.getDoneHeight u = 0) ∨
    ((∃ u ∈ versioned.upgrades, done.getDoneHeight u ≠ 0) ∧
      ∀ u ∈ versioned.upgrades, ¬DoneBy height done u) := by
  by_cases h : ∃ u ∈ versioned.upgrades, DoneBy height done u
  · exact .inl h
  · by_cases h' : ∀ u ∈ versioned.upgrades, done.getDoneHeight u = 0
    · exact .inr (.inl h')
    · push Not at h h'
      exact .inr (.inr ⟨h', h⟩)

structure Historical (k : Keeper P) (height : Int64) (done : DoneHeights) (cp : PrecompileMap P) :
    Prop where
  ofDone : ∀ addr versioned, k.customPrecompiles addr = some versioned →
    (∃ u ∈ versioned.upgrades, DoneBy height done u) →
    ∃ u p, LatestOf height done versioned.upgrades u ∧ versioned.contract u = some p ∧
      cp addr = some (some p)
  ofLatest : ∀ addr versioned, k.customPrecompiles addr = some versioned →
    (∀ u ∈ versioned.upgrades, done.getDoneHeight u = 0) →
    ∃ p, versioned.contract k.latestUpgrade = some p ∧ cp addr = some (some p)
  absent : ∀ addr versioned, k.customPrecompiles addr = some versioned →
    (∃ u ∈ versioned.upgrades, done.getDoneHeight u ≠ 0) →
    (∀ u ∈ versioned.upgrades, ¬DoneBy height done u) → cp addr = none
  noNil : ∀ addr, cp addr ≠ some none

def Covered (k : Keeper P) (height : Int64) (done : DoneHeights)
    (versioned : VersionedPrecompiles P) : Prop :=
  (∃ u ∈ versioned.upgrades, DoneBy height done u) ∨
  ((∀ u ∈ versioned.upgrades, done.getDoneHeight u = 0) ∧ k.latestUpgrade ∈ versioned.upgrades)

variable {k : Keeper P} {addr : Address}

theorem contract_of_mem {u : String} (h : u ∈ versioned.upgrades) :
    ∃ p, versioned.contract u = some p :=
  Option.isSome_iff_exists.mp ((versioned.mem_upgrades u).mp h)

theorem customPrecompiles_traced (hk : k.customPrecompiles addr = some versioned) :
    customPrecompiles k ⟨true, height, done⟩ addr =
      some (versioned.contract ((versionAt k.latestUpgrade height done versioned).getD "")) := by
  simp [customPrecompiles, getCustomPrecompilesVersions, hk]

theorem customPrecompiles_traced_none (hk : k.customPrecompiles addr = none) :
    customPrecompiles k ⟨true, height, done⟩ addr = none := by
  simp [customPrecompiles, hk]

theorem customPrecompiles_of_doneBy (hk : k.customPrecompiles addr = some versioned)
    (h : ∃ u ∈ versioned.upgrades, DoneBy height done u) :
    ∃ u p, LatestOf height done versioned.upgrades u ∧ versioned.contract u = some p ∧
      customPrecompiles k ⟨true, height, done⟩ addr = some (some p) := by
  obtain ⟨u, hu, hd⟩ := h
  obtain ⟨v, hv, e⟩ := versionAt_of_doneBy k.latestUpgrade hu hd
  obtain ⟨p, hp⟩ := contract_of_mem hv.mem
  exact ⟨v, p, hv, hp, by rw [customPrecompiles_traced hk, e, Option.getD_some, hp]⟩

theorem customPrecompiles_of_notDone (hk : k.customPrecompiles addr = some versioned)
    (h : ∀ u ∈ versioned.upgrades, done.getDoneHeight u = 0) :
    customPrecompiles k ⟨true, height, done⟩ addr =
      some (versioned.contract k.latestUpgrade) := by
  rw [customPrecompiles_traced hk, versionAt_of_notDone h, Option.getD_some]

theorem customPrecompiles_of_covered (hk : k.customPrecompiles addr = some versioned)
    (h : Covered k height done versioned) :
    ∃ p, customPrecompiles k ⟨true, height, done⟩ addr = some (some p) := by
  rcases h with h | ⟨h, hl⟩
  · obtain ⟨_, p, -, -, e⟩ := customPrecompiles_of_doneBy hk h
    exact ⟨p, e⟩
  · obtain ⟨p, hp⟩ := contract_of_mem hl
    exact ⟨p, by rw [customPrecompiles_of_notDone hk h, hp]⟩

/-- **The map of a traced block** is the one of its height, with no nil in it, exactly when every
address with a done upgrade has one at or below the height, and every other has a version of the
latest upgrade. -/
theorem customPrecompiles_historical_iff (k : Keeper P) (height : Int64) (done : DoneHeights) :
    Historical k height done (customPrecompiles k ⟨true, height, done⟩) ↔
      ∀ addr versioned, k.customPrecompiles addr = some versioned →
        Covered k height done versioned := by
  constructor
  · intro h addr versioned hk
    rcases version_cases height done versioned with hd | hn | ⟨hd, hn⟩
    · exact .inl hd
    · obtain ⟨p, hp, -⟩ := h.ofLatest addr versioned hk hn
      exact .inr ⟨hn, (versioned.mem_upgrades _).mpr (Option.isSome_of_eq_some hp)⟩
    · -- the entry is there, with whatever the empty name gives
      have habsent := h.absent addr versioned hk hd hn
      rw [customPrecompiles_traced hk] at habsent
      cases habsent
  · intro h
    refine ⟨fun addr versioned hk => customPrecompiles_of_doneBy hk, ?_, ?_, ?_⟩
    · intro addr versioned hk hn
      obtain ⟨p, hp⟩ := customPrecompiles_of_covered hk (h addr versioned hk)
      rw [customPrecompiles_of_notDone hk hn] at hp ⊢
      exact ⟨p, Option.some.inj hp, hp⟩
    · rintro addr versioned hk ⟨u, hu, hne⟩ hn
      rcases h addr versioned hk with ⟨v, hv, hd⟩ | ⟨h0, -⟩
      · exact absurd hd (hn v hv)
      · exact absurd (h0 u hu) hne
    · intro addr hnil
      cases hk : k.customPrecompiles addr with
      | none => rw [customPrecompiles_traced_none hk] at hnil; cases hnil
      | some versioned =>
        obtain ⟨p, hp⟩ := customPrecompiles_of_covered hk (h addr versioned hk)
        rw [hp] at hnil
        cases hnil

def onlyV5 (u : String) : Option Unit := if u = "v5" then some () else none

theorem mem_onlyV5 (u : String) : u ∈ ["v5"] ↔ (onlyV5 u).isSome := by
  by_cases e : u = "v5" <;> simp [onlyV5, e]

def v5Keeper : Keeper Unit :=
  setCustomPrecompiles
    (fun _ => some ⟨["v5"], onlyV5, List.pairwise_singleton _ _, mem_onlyV5⟩) "v5"

def v5DoneHeight (u : String) : Int64 := if u = "v5" then 10 else 0

theorem v5DoneHeight_nonneg (u : String) : 0 ≤ v5DoneHeight u := by
  unfold v5DoneHeight
  split_ifs <;> decide

/-- A block at height 5 is traced: the address, which had no precompile then, holds nil. -/
theorem customPrecompiles_nil_before_v5 :
    customPrecompiles v5Keeper ⟨true, 5, ⟨v5DoneHeight, v5DoneHeight_nonneg⟩⟩
      ⟨List.replicate 20 0, rfl⟩ = some none ∧
    ¬Historical v5Keeper 5 ⟨v5DoneHeight, v5DoneHeight_nonneg⟩
      (customPrecompiles v5Keeper ⟨true, 5, ⟨v5DoneHeight, v5DoneHeight_nonneg⟩⟩) := by
  refine ⟨rfl, fun h => ?_⟩
  exact h.noNil ⟨List.replicate 20 0, rfl⟩ rfl

end Tabi.Precompile.Versions
