import Tabi.Registry.Pointers
import Tabi.StateDB.Bank
import Tabi.StateDB.Effects

/-!
# Registry — deploying and upgrading pointers

`UpsertERCPointer` (`x/evm/keeper/pointer_upgrade.go`) runs the deployment code of a pointer
contract.
-/

namespace Tabi.Registry

open Support

variable {β γ : Type}

structure Context (β γ : Type) where
  stores : StateDB.Stores β γ
  registry : Store
  events : List Event

def Context.commit (c : Context β γ) (e : StateDB.Effect β γ) : Context β γ :=
  ⟨e.writes • c.stores, c.registry, c.events ++ e.events⟩

inductive Arg where
  | string (s : Bytes)
  | uint8 (n : UInt8)

structure ERCMetadata where
  name : Bytes
  symbol : Bytes
  decimals : UInt8

/-- What `GetDeploymentCode` returns; no data is the empty list. -/
structure Deployed where
  ret : Bytes
  remainingGas : UInt64
  err : Option String

structure Created where
  contractAddr : Address
  remainingGas : UInt64
  err : Option String

structure EVM (β γ : Type) where
  getDeploymentCode : Context β γ → Address → Bytes → UInt64 → Address → Deployed
  create : Context β γ → Address → Bytes → UInt64 → Created
  /-- `Finalize` of its state database: what it writes into the context, or its error. -/
  finalize : Context β γ → Except String (StateDB.Effect β γ)

structure Env (β γ : Type) where
  keepers : StateDB.Keepers β γ
  ctx : Ctx
  pack : ERC → List Arg → Except String Bytes
  getBin : ERC → Bytes
  evmGasLimit : UInt64
  cosmosGasLimitFromEVMGas : UInt64 → UInt64
  /-- `GasMeter().ConsumeGas`, which panics when the gas runs out. -/
  consumeGas : UInt64 → Outcome Unit

def ERC.typ : ERC → String
  | native => "native"
  | cw20 => "cw20"
  | cw721 => "cw721"
  | cw1155 => "cw1155"

def firstString : List Arg → Outcome Bytes
  | [] => .error .indexOutOfRange
  | .string s :: _ => .ok s
  | .uint8 _ :: _ =>
    .error (.raised "interface conversion: interface \x7b\x7d is uint8, not string")

section

variable (env : Env β γ) (evm : EVM β γ)

def pointerRegistered (typ : ERC) (contractAddr : Address) (pointee : Bytes) : Event :=
  ⟨Bytes.ofString "pointer_registered",
    [(Bytes.ofString "pointer_type", Bytes.ofString typ.typ),
      (Bytes.ofString "pointer_address", env.keepers.hex contractAddr),
      (Bytes.ofString "pointee", pointee)]⟩

def register (typ : ERC) (pointee : Bytes) (contractAddr : Address) (remainingGas : UInt64)
    (err : Option String) (c : Context β γ) : Outcome (Context β γ × Except String Address) :=
  match err with
  | some e => .ok (c, .error e)
  | none => do
    env.consumeGas (env.cosmosGasLimitFromEVMGas (env.evmGasLimit - remainingGas))
    match ← typ.setPointer env.ctx c.registry pointee contractAddr with
    | .error e => return (c, .error e)
    | .ok registry =>
      return ({ c with
        registry := registry
        events := c.events ++ [pointerRegistered env typ contractAddr pointee] },
        .ok contractAddr)

/-- `UpsertERCPointer`, with `getter` and `setter` those of the kind. -/
def upsertERCPointer (typ : ERC) (args : List Arg) (c : Context β γ) :
    Outcome (Context β γ × Except String Address) := do
  let pointee ← firstString args
  let evmModuleAddress :=
    StateDB.getEVMAddressOrDefault c.stores env.keepers.evmModuleAddress
  match env.pack typ args with
  | .error e => .error (.raised e)
  | .ok packed =>
    let bin := env.getBin typ ++ packed
    match ← typ.getPointer env.ctx c.registry pointee with
    | some (existingAddr, _) =>
      let d := evm.getDeploymentCode c evmModuleAddress bin env.evmGasLimit existingAddr
      register env typ pointee existingAddr d.remainingGas d.err
        (c.commit (StateDB.setCode env.keepers c.stores existingAddr d.ret))
    | none =>
      let d := evm.create c evmModuleAddress bin env.evmGasLimit
      register env typ pointee d.contractAddr d.remainingGas d.err c

def upsertERCNativePointer (token : Bytes) (metadata : ERCMetadata) :=
  upsertERCPointer env evm .native
    [.string token, .string metadata.name, .string metadata.symbol, .uint8 metadata.decimals]

def upsertERCCW20Pointer (cw20Addr : Bytes) (metadata : ERCMetadata) :=
  upsertERCPointer env evm .cw20
    [.string cw20Addr, .string metadata.name, .string metadata.symbol]

def upsertERCCW721Pointer (cw721Addr : Bytes) (metadata : ERCMetadata) :=
  upsertERCPointer env evm .cw721
    [.string cw721Addr, .string metadata.name, .string metadata.symbol]

def upsertERCCW1155Pointer (cw1155Addr : Bytes) (metadata : ERCMetadata) :=
  upsertERCPointer env evm .cw1155
    [.string cw1155Addr, .string metadata.name, .string metadata.symbol]

/-- `RunWithOneOffEVMInstance`; `blockCtx` is the error of `GetVMBlockContext`. -/
def runWithOneOffEVMInstance (blockCtx : Option String)
    (runner : Context β γ → Outcome (Context β γ × Except String Address)) (c : Context β γ) :
    Outcome (Context β γ × Except String Unit) :=
  match blockCtx with
  | some e => .ok (c, .error e)
  | none => do
    let (c, result) ← runner c
    match result with
    | .error e => return (c, .error e)
    | .ok _ =>
      match evm.finalize c with
      | .error e => return (c, .error e)
      | .ok writes => return (c.commit writes, .ok ())

/-- A migration of one pointer: the error is logged and ignored. -/
def migratePointer (blockCtx : Option String) (typ : ERC) (args : List Arg) (c : Context β γ) :
    Outcome (Context β γ) := do
  let (c, _) ← runWithOneOffEVMInstance evm blockCtx (upsertERCPointer env evm typ args) c
  return c

end

def IsPointer (ctx : Ctx) (c : Context β γ) (a : Address) : Prop :=
  ∃ (typ : ERC) (pointee : Bytes) (version : UInt16),
    typ.getPointer ctx c.registry pointee = .ok (some (a, version))

structure Unchanged (ctx : Ctx) (c c' : Context β γ) : Prop where
  code : ∀ a, IsPointer ctx c a → StateDB.storedCode c'.stores a = StateDB.storedCode c.stores a
  registry : c'.registry = c.registry
  tabi : ∀ a, StateDB.getTabiAddress c'.stores a = StateDB.getTabiAddress c.stores a
  evm : ∀ t, StateDB.getEVMAddress c'.stores t = StateDB.getEVMAddress c.stores t

def returned (env : Env β γ) (evm : EVM β γ) (typ : ERC) (args : List Arg) (c : Context β γ)
    (existingAddr : Address) : Bytes :=
  match env.pack typ args with
  | .error _ => []
  | .ok packed => (evm.getDeploymentCode c
      (StateDB.getEVMAddressOrDefault c.stores env.keepers.evmModuleAddress)
      (env.getBin typ ++ packed) env.evmGasLimit existingAddr).ret

section

variable {env : Env β γ} {evm : EVM β γ} {typ : ERC} {c c' : Context β γ} {e : String}

theorem register_error {pointee : Bytes} {contractAddr : Address} {remainingGas : UInt64}
    {err : Option String}
    (h : register env typ pointee contractAddr remainingGas err c = .ok (c', .error e)) :
    c' = c := by
  unfold register at h
  cases err with
  | some e' =>
    cases h
    rfl
  | none =>
    obtain ⟨_, _, h⟩ := bind_eq_ok.mp h
    obtain ⟨set, _, h⟩ := bind_eq_ok.mp h
    cases set with
    | error e' =>
      cases h
      rfl
    | ok registry => cases h

theorem upsertERCPointer_error {pointee : Bytes} {rest : List Arg}
    (h : upsertERCPointer env evm typ (.string pointee :: rest) c = .ok (c', .error e)) :
    (typ.getPointer env.ctx c.registry pointee = .ok none ∧ c' = c) ∨
      ∃ existing version,
        typ.getPointer env.ctx c.registry pointee = .ok (some (existing, version)) ∧
        c' = c.commit (StateDB.setCode env.keepers c.stores existing
          (returned env evm typ (.string pointee :: rest) c existing)) := by
  unfold upsertERCPointer at h
  obtain ⟨_, hp, h⟩ := bind_eq_ok.mp h
  cases hp
  cases hpack : env.pack typ (.string pointee :: rest) with
  | error e' =>
    rw [hpack] at h
    cases h
  | ok packed =>
    rw [hpack] at h
    obtain ⟨info, hget, h⟩ := bind_eq_ok.mp h
    cases info with
    | none => exact .inl ⟨hget, register_error h⟩
    | some info =>
      obtain ⟨existing, version⟩ := info
      refine .inr ⟨existing, version, hget, ?_⟩
      rw [returned, hpack]
      exact register_error h

theorem Unchanged.refl (ctx : Ctx) (c : Context β γ) : Unchanged ctx c c :=
  ⟨fun _ _ => rfl, rfl, fun _ => rfl, fun _ => rfl⟩

theorem unchanged_commit_iff {keepers : StateDB.Keepers β γ} {ctx : Ctx} {existing : Address}
    (hexisting : IsPointer ctx c existing) (code : Bytes) :
    Unchanged ctx c (c.commit (StateDB.setCode keepers c.stores existing code)) ↔
      StateDB.storedCode c.stores existing = StateDB.withCode keepers code ∧
        StateDB.getTabiAddress c.stores existing ≠ none := by
  constructor
  · intro h
    constructor
    · rw [← h.code existing hexisting]
      exact StateDB.storedCode_setCode keepers c.stores existing code
    · rw [← h.tabi existing]
      exact StateDB.getTabiAddress_setCode_ne_none
  · rintro ⟨hcode, hassoc⟩
    refine ⟨?_, rfl, StateDB.getTabiAddress_setCode hassoc, StateDB.getEVMAddress_setCode hassoc⟩
    intro a _
    by_cases ha : a = existing
    · rw [ha, hcode]
      exact StateDB.storedCode_setCode keepers c.stores existing code
    · exact StateDB.storedCode_setCode_other ha

theorem migratePointer_of_error {args : List Arg}
    (h : upsertERCPointer env evm typ args c = .ok (c', .error e)) :
    migratePointer env evm none typ args c = .ok c' := by
  unfold migratePointer runWithOneOffEVMInstance
  rw [h]
  rfl

/-- **When a failed upgrade changes nothing.**  A call that returns an error leaves the code of
every pointer, the registry and the associations as they were exactly when the pointee had no
pointer, or the data that came back was the code of that pointer already and its address had an
association.  A migration that ignores the error leaves the same. -/
theorem upsert_keeps_iff {pointee : Bytes} {rest : List Arg}
    (h : upsertERCPointer env evm typ (.string pointee :: rest) c = .ok (c', .error e)) :
    (Unchanged env.ctx c c' ↔ ∀ existing version,
      typ.getPointer env.ctx c.registry pointee = .ok (some (existing, version)) →
        StateDB.storedCode c.stores existing = StateDB.withCode env.keepers
            (returned env evm typ (.string pointee :: rest) c existing) ∧
          StateDB.getTabiAddress c.stores existing ≠ none) ∧
      migratePointer env evm none typ (.string pointee :: rest) c = .ok c' := by
  refine ⟨?_, migratePointer_of_error h⟩
  rcases upsertERCPointer_error h with ⟨hget, rfl⟩ | ⟨existing, version, hget, rfl⟩
  · constructor
    · intro _ existing version hget'
      rw [hget] at hget'
      cases hget'
    · intro _
      exact Unchanged.refl env.ctx c'
  · rw [unchanged_commit_iff ⟨typ, pointee, version, hget⟩]
    constructor
    · intro hkept existing' version' hget'
      rw [hget] at hget'
      cases hget'
      exact hkept
    · intro hkept
      exact hkept existing version hget

end

def plainEnv : Env AccAddress ℤ where
  keepers := StateDB.ledgerKeepers []
  ctx := ⟨false, 1⟩
  pack _ _ := .ok []
  getBin _ := [0x60]
  evmGasLimit := 100
  cosmosGasLimitFromEVMGas gas := gas
  consumeGas _ := .ok ()

def revertingEVM (data : Bytes) : EVM AccAddress ℤ where
  getDeploymentCode _ _ _ _ _ := ⟨data, 0, some "execution reverted"⟩
  create _ _ _ _ := ⟨StateDB.bob, 0, some "execution reverted"⟩
  finalize _ := .ok { writes := 1 }

def utoken : Bytes := [0x75]

def upgradable : Context AccAddress ℤ where
  stores :=
    let v : StateDB.Stores AccAddress ℤ := ⟨fun _ => none, fun _ => none, fun _ => none⟩
    (StateDB.setCode plainEnv.keepers v StateDB.alice [1, 2, 3]).writes • v
  registry := setPointerInfo (setPointerInfo .empty (pointerERC20NativeKey utoken)
    StateDB.alice.bytes 1) (pointerReverseRegistryKey StateDB.alice) utoken 1
  events := []

theorem getPointer_upgradable :
    ERC.native.getPointer plainEnv.ctx upgradable.registry utoken =
      .ok (some (StateDB.alice, 1)) := by
  decide

def upgraded (data : Bytes) : Context AccAddress ℤ :=
  upgradable.commit (StateDB.setCode plainEnv.keepers upgradable.stores StateDB.alice data)

theorem upsert_upgradable (data : Bytes) :
    upsertERCPointer plainEnv (revertingEVM data) .native [.string utoken] upgradable =
      .ok (upgraded data, .error "execution reverted") := by
  have hpack : plainEnv.pack .native [.string utoken] = .ok [] := rfl
  simp only [upsertERCPointer, firstString, Outcome.ok_bind, hpack, getPointer_upgradable]
  rfl

theorem upgradable_stored :
    StateDB.storedCode upgradable.stores StateDB.alice =
      StateDB.withCode plainEnv.keepers [1, 2, 3] :=
  StateDB.storedCode_setCode plainEnv.keepers _ StateDB.alice [1, 2, 3]

theorem upgraded_stored (data : Bytes) :
    StateDB.storedCode (upgraded data).stores StateDB.alice =
      StateDB.withCode plainEnv.keepers data :=
  StateDB.storedCode_setCode plainEnv.keepers upgradable.stores StateDB.alice data

theorem upsert_keeps_same_code :
    upsertERCPointer plainEnv (revertingEVM [1, 2, 3]) .native [.string utoken] upgradable =
        .ok (upgraded [1, 2, 3], .error "execution reverted") ∧
      Unchanged plainEnv.ctx upgradable (upgraded [1, 2, 3]) := by
  refine ⟨upsert_upgradable [1, 2, 3], ?_⟩
  rw [(upsert_keeps_iff (upsert_upgradable [1, 2, 3])).1]
  intro existing version hget
  rw [getPointer_upgradable] at hget
  cases hget
  exact ⟨upgradable_stored, StateDB.getTabiAddress_setCode_ne_none⟩

theorem upsert_stores_revert_data :
    ∃ c', upsertERCPointer plainEnv (revertingEVM [0xde, 0xad]) .native [.string utoken]
        upgradable = .ok (c', .error "execution reverted") ∧
      migratePointer plainEnv (revertingEVM [0xde, 0xad]) none .native [.string utoken] upgradable =
        .ok c' ∧
      IsPointer plainEnv.ctx upgradable StateDB.alice ∧
      StateDB.getCode upgradable.stores StateDB.alice = [1, 2, 3] ∧
      StateDB.getCode c'.stores StateDB.alice = [0xde, 0xad] ∧
      ¬ Unchanged plainEnv.ctx upgradable c' := by
  have hpointer : IsPointer plainEnv.ctx upgradable StateDB.alice :=
    ⟨.native, utoken, 1, getPointer_upgradable⟩
  refine ⟨upgraded [0xde, 0xad], upsert_upgradable _, migratePointer_of_error (upsert_upgradable _),
    hpointer, congrArg Prod.fst upgradable_stored, congrArg Prod.fst (upgraded_stored _), ?_⟩
  intro h
  have hcode := h.code StateDB.alice hpointer
  rw [upgraded_stored, upgradable_stored] at hcode
  cases congrArg Prod.fst hcode

end Tabi.Registry
