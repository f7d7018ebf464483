import Tabi.Registry.Exact
import Tabi.Registry.Upsert

/-!
# Registry — pointers to pointers

A setter refuses a pointee that is a pointer (`ErrorPointerToPointerNotAllowed`).
-/

namespace Tabi.Registry

open Support Support.Versioned

inductive Party where
  | evm (a : Address)
  | cw (name : Bytes)
  deriving DecidableEq

def Party.place : Party → Address
  | .evm a => a
  | .cw name => .ofBytes 20 name

def Kind.pointer : Kind → Bytes → Party
  | .erc _, p => .evm (.ofBytes 20 p)
  | .cw _, p => .cw p

def Kind.pointee : Kind → Bytes → Party
  | .erc _, x => .cw x
  | .cw _, x => .evm (.ofBytes 20 x)

theorem Kind.place_pointer (kind : Kind) (p : Bytes) : (kind.pointer p).place = .ofBytes 20 p := by
  cases kind <;> rfl

theorem Kind.place_pointee (kind : Kind) (x : Bytes) : (kind.pointee x).place = .ofBytes 20 x := by
  cases kind <;> rfl

theorem Kind.pointer_ne_pointee (kind : Kind) (p x : Bytes) : kind.pointer p ≠ kind.pointee x := by
  cases kind <;> simp [Kind.pointer, Kind.pointee]

inductive Registration where
  | erc (k : ERC) (pointee : Bytes) (addr : Address) (version : UInt16)
  | cw (k : CW) (pointee : Address) (addr : Bytes) (version : UInt16)

namespace Registration

def set (s : Store) : Registration → Outcome (Except String Store)
  | .erc k x a v => k.setPointerWithVersion s x a v
  | .cw k a p v => k.setPointerWithVersion s a p v

def kind : Registration → Kind
  | .erc k _ _ _ => .erc k
  | .cw k _ _ _ => .cw k

def name : Registration → Bytes
  | .erc _ x _ _ => x
  | .cw _ a _ _ => a.bytes

def addr : Registration → Bytes
  | .erc _ _ a _ => a.bytes
  | .cw _ _ p _ => p

def version : Registration → UInt16
  | .erc _ _ _ v => v
  | .cw _ _ _ v => v

def pointer (r : Registration) : Party := r.kind.pointer r.addr

def pointee (r : Registration) : Party := r.kind.pointee r.name

def entered (r : Registration) (s : Store) : Store :=
  setPointerInfo (setPointerInfo s (r.kind.key r.name) r.addr r.version)
    (pointerReverseRegistryKey r.pointer.place) r.name r.version

theorem check_eq_ok {info : Outcome (Option (Bytes × UInt16))} {s s' : Store} :
    ((do
      if ← info.map Option.isSome then return .error errorPointerToPointerNotAllowed
      return .ok s : Outcome (Except String Store)) = .ok (.ok s')) ↔ info = .ok none ∧ s' = s := by
  cases info with
  | error p =>
    constructor
    · intro h
      cases h
    · rintro ⟨h, -⟩
      cases h
  | ok info =>
    cases info with
    | some info =>
      constructor
      · intro h
        cases h
      · rintro ⟨h, -⟩
        cases h
    | none =>
      constructor
      · intro h
        cases h
        exact ⟨rfl, rfl⟩
      · rintro ⟨-, rfl⟩
        rfl

theorem set_eq_ok {r : Registration} {s s' : Store} :
    r.set s = .ok (.ok s') ↔
      getAnyPointerInfo s (pointerReverseRegistryKey r.pointee.place) = .ok none ∧
        s' = r.entered s := by
  cases r with
  | erc k x a v =>
    rw [entered, pointee, pointer, Kind.place_pointer, Kind.place_pointee]
    simp only [kind, name, addr, version, FixedBytes.ofBytes_bytes]
    rw [← ERC.key_eq]
    exact check_eq_ok
  | cw k a p v =>
    rw [entered, pointee, pointer, Kind.place_pointer, Kind.place_pointee]
    simp only [kind, name, addr, version, FixedBytes.ofBytes_bytes]
    rw [← CW.key_eq]
    exact check_eq_ok

end Registration

inductive Reached : List Registration → Store → Prop where
  | empty : Reached [] .empty
  | set {rs : List Registration} {s s' : Store} {r : Registration} (h : Reached rs s)
      (hset : r.set s = .ok (.ok s')) : Reached (rs ++ [r]) s'

def Registered (s : Store) (pointer pointee : Party) : Prop :=
  ∃ (kind : Kind) (x p : Bytes) (v : UInt16), s.get (versionKey (kind.key x) v) = some p ∧
    pointer = kind.pointer p ∧ pointee = kind.pointee x

def NoPointerToPointer (s : Store) : Prop :=
  ∀ p q, Registered s p q → ∀ p', ¬ Registered s p' p

section

variable {rs : List Registration} {r : Registration} {s s' : Store} {p q : Party}

theorem Registration.get_entered (r : Registration) (s : Store) (kind : Kind) (x : Bytes)
    (v : UInt16) : (r.entered s).get (versionKey (kind.key x) v) =
      if kind = r.kind ∧ x = r.name ∧ v = r.version then some r.addr
      else s.get (versionKey (kind.key x) v) := by
  simp only [Registration.entered, setPointerInfo, SortedStore.get_set, forward_ne_reverse,
    if_false, key_inj]

theorem registered_entered (r : Registration) (s : Store) :
    Registered (r.entered s) r.pointer r.pointee := by
  refine ⟨r.kind, r.name, r.addr, r.version, ?_, rfl, rfl⟩
  rw [r.get_entered, if_pos ⟨rfl, rfl, rfl⟩]

theorem Registered.of_entered (h : Registered (r.entered s) p q) :
    Registered s p q ∨ p = r.pointer ∧ q = r.pointee := by
  obtain ⟨kind, x, bz, v, hget, rfl, rfl⟩ := h
  rw [r.get_entered] at hget
  split at hget
  · rename_i hr
    obtain ⟨rfl, rfl, rfl⟩ := hr
    cases hget
    exact .inr ⟨rfl, rfl⟩
  · exact .inl ⟨kind, x, bz, v, hget, rfl, rfl⟩

theorem Registered.entered (h : Registered s p q) (r : Registration) :
    ∃ p', Registered (r.entered s) p' q := by
  obtain ⟨kind, x, bz, v, hget, rfl, rfl⟩ := h
  by_cases hr : kind = r.kind ∧ x = r.name ∧ v = r.version
  · refine ⟨r.pointer, ?_⟩
    rw [hr.1, hr.2.1]
    exact registered_entered r s
  · refine ⟨kind.pointer bz, kind, x, bz, v, ?_, rfl, rfl⟩
    rw [r.get_entered, if_neg hr, hget]

theorem not_registered_empty : ¬ Registered .empty p q := by
  rintro ⟨kind, x, bz, v, hget, -, -⟩
  cases hget

theorem Reached.pointee_iff (h : Reached rs s) :
    (∃ p, Registered s p q) ↔ ∃ r ∈ rs, r.pointee = q := by
  induction h with
  | empty =>
    constructor
    · rintro ⟨p, hp⟩
      exact absurd hp not_registered_empty
    · rintro ⟨r, hr, -⟩
      cases hr
  | @set rs s s' r h hset ih =>
    obtain ⟨-, rfl⟩ := Registration.set_eq_ok.mp hset
    constructor
    · rintro ⟨p, hp⟩
      rcases hp.of_entered with hold | ⟨-, rfl⟩
      · obtain ⟨r', hr', hq⟩ := ih.mp ⟨p, hold⟩
        exact ⟨r', List.mem_append_left _ hr', hq⟩
      · exact ⟨r, List.mem_append_right _ List.mem_cons_self, rfl⟩
    · rintro ⟨r', hr', rfl⟩
      rcases List.mem_append.mp hr' with hr' | hr'
      · obtain ⟨p, hp⟩ := ih.mpr ⟨r', hr', rfl⟩
        exact hp.entered r
      · rw [List.mem_singleton.mp hr']
        exact ⟨r.pointer, registered_entered r s⟩

theorem Reached.place (h : Reached rs s) (hp : Registered s p q) :
    ∃ v, s.get (versionKey (pointerReverseRegistryKey p.place) v) ≠ none := by
  induction h with
  | empty => exact absurd hp not_registered_empty
  | @set rs s s' r h hset ih =>
    obtain ⟨-, rfl⟩ := Registration.set_eq_ok.mp hset
    have hmono : ∀ a v, s.get (versionKey (pointerReverseRegistryKey a) v) ≠ none →
        (r.entered s).get (versionKey (pointerReverseRegistryKey a) v) ≠ none := by
      intro a v hget
      simp only [Registration.entered, setPointerInfo, SortedStore.get_set,
        forward_ne_reverse.symm, if_false]
      split
      · exact Option.some_ne_none _
      · exact hget
    rcases hp.of_entered with hold | ⟨rfl, -⟩
    · obtain ⟨v, hv⟩ := ih hold
      exact ⟨v, hmono _ v hv⟩
    · refine ⟨r.version, ?_⟩
      rw [Registration.entered, setPointerInfo, SortedStore.get_set, if_pos rfl]
      exact Option.some_ne_none _

theorem Reached.pointee_not_pointer (h : Reached rs s) (hset : r.set s = .ok (.ok s')) :
    ¬ Registered s r.pointee q := by
  intro hp
  obtain ⟨v, hv⟩ := h.place hp
  exact hv (newest_eq_none (Registration.set_eq_ok.mp hset).1 v)

theorem Reached.keeps_iff (h : Reached rs s) (hs : NoPointerToPointer s)
    (hset : r.set s = .ok (.ok s')) :
    NoPointerToPointer s' ↔ ∀ r' ∈ rs, r.pointer ≠ r'.pointee := by
  have haccepted : ∀ q, ¬ Registered s r.pointee q := fun _ => h.pointee_not_pointer hset
  obtain ⟨-, rfl⟩ := Registration.set_eq_ok.mp hset
  constructor
  · intro hs' r' hr' e
    obtain ⟨p, hp⟩ := h.pointee_iff.mpr ⟨r', hr', e.symm⟩
    obtain ⟨p', hp'⟩ := hp.entered r
    exact hs' _ _ (registered_entered r s) p' hp'
  · intro hr p q hp p' hp'
    rcases hp.of_entered with hold | ⟨rfl, rfl⟩
    · rcases hp'.of_entered with hold' | ⟨-, rfl⟩
      · exact hs p q hold p' hold'
      · exact haccepted q hold
    · rcases hp'.of_entered with hold' | ⟨-, e⟩
      · obtain ⟨r', hr', e⟩ := h.pointee_iff.mp ⟨p', hold'⟩
        exact hr r' hr' e.symm
      · exact r.kind.pointer_ne_pointee _ _ e

theorem Reached.noPointerToPointer (h : Reached rs s)
    (hrs : rs.Pairwise fun r r' => r'.pointer ≠ r.pointee) : NoPointerToPointer s := by
  induction h with
  | empty => exact fun p q hp => absurd hp not_registered_empty
  | set h hset ih =>
    obtain ⟨hrs, -, hlast⟩ := List.pairwise_append.mp hrs
    exact (h.keeps_iff (ih hrs) hset).mpr fun r' hr' => hlast r' hr' _ List.mem_cons_self

/-- **When there is no pointer to a pointer.**  In a run of setters, of all kinds and with any
pointees and pointers, that return no error, pointers and pointees are apart in every registry on
the way exactly when no registration makes a pointer of what an earlier one made a pointee. -/
theorem registrations_keep_iff (h : Reached rs s) :
    (∀ rs₀ s₀, rs₀ <+: rs → Reached rs₀ s₀ → NoPointerToPointer s₀) ↔
      rs.Pairwise fun earlier later => later.pointer ≠ earlier.pointee := by
  constructor
  · intro hall
    induction h with
    | empty => exact .nil
    | @set rs s s' r h hset ih =>
      have hrs : rs.Pairwise fun earlier later => later.pointer ≠ earlier.pointee :=
        ih fun rs₀ s₀ hpre => hall rs₀ s₀ (hpre.trans (List.prefix_append rs [r]))
      have hkeeps := (h.keeps_iff (hall rs s (List.prefix_append rs [r]) h) hset).mp
        (hall _ s' List.prefix_rfl (h.set hset))
      rw [List.pairwise_append]
      refine ⟨hrs, List.pairwise_singleton _ _, ?_⟩
      intro r' hr' r'' hr''
      rw [List.mem_singleton.mp hr'']
      exact hkeeps r' hr'
  · intro hrs rs₀ s₀ hpre h₀
    exact h₀.noPointerToPointer (hrs.sublist hpre.sublist)

end

theorem registrations_keep_two : let rs : List Registration :=
      [.erc .native utoken StateDB.alice 1, .cw .erc20 StateDB.bob (List.replicate 20 7) 2]
    ∃ s, Reached rs s ∧ NoPointerToPointer s := by
  intro rs
  have h : ∃ s, Reached rs s :=
    ⟨_, (Reached.empty.set (Registration.set_eq_ok.mpr ⟨rfl, rfl⟩)).set
      (Registration.set_eq_ok.mpr ⟨by decide, rfl⟩)⟩
  obtain ⟨s, h⟩ := h
  have hapart : rs.Pairwise fun earlier later => later.pointer ≠ earlier.pointee := by decide
  exact ⟨s, h, (registrations_keep_iff h).mpr hapart rs s List.prefix_rfl h⟩

theorem registrations_chain : let B : Bech32 := ⟨some, id⟩
    let ctx : Ctx := ⟨false, 1⟩
    let contract : Bytes := List.replicate 20 7
    let token : Bytes := List.replicate 20 8
    let rs : List Registration :=
      [.cw .erc20 StateDB.alice contract 2, .erc .cw20 token StateDB.alice 1]
    ∃ s, Reached rs s ∧
      Registered s (.cw contract) (.evm StateDB.alice) ∧
      Registered s (.evm StateDB.alice) (.cw token) ∧
      getCW20ERC20Pointer B ctx s StateDB.alice = .ok (some (contract, 2)) ∧
      getERC20CW20Pointer ctx s token = .ok (some (StateDB.alice, 1)) ∧
      ¬ NoPointerToPointer s := by
  intro B ctx contract token rs
  let s₁ : Store := (Registration.cw .erc20 StateDB.alice contract 2).entered .empty
  let s : Store := (Registration.erc .cw20 token StateDB.alice 1).entered s₁
  have h₁ : Reached [.cw .erc20 StateDB.alice contract 2] s₁ :=
    Reached.empty.set (Registration.set_eq_ok.mpr ⟨rfl, rfl⟩)
  have h : Reached rs s := h₁.set (Registration.set_eq_ok.mpr ⟨by decide, rfl⟩)
  have hpointee : Registered s (.cw contract) (.evm StateDB.alice) :=
    ⟨.cw .erc20, StateDB.alice.bytes, contract, 2, by decide, rfl, by decide⟩
  have hpointer : Registered s (.evm StateDB.alice) (.cw token) :=
    ⟨.erc .cw20, token, StateDB.alice.bytes, 1, by decide, by decide, rfl⟩
  exact ⟨s, h, hpointee, hpointer, by decide, by decide, fun hno => hno _ _ hpointer _ hpointee⟩

def Registers (s s' : Store) : Prop :=
  s' = s ∨ ∃ r : Registration, r.set s = .ok (.ok s')

theorem Reached.registers {rs : List Registration} {s s' : Store} (h : Reached rs s)
    (hs : Registers s s') : ∃ rs', Reached rs' s' := by
  rcases hs with rfl | ⟨r, hset⟩
  · exact ⟨rs, h⟩
  · exact ⟨_, h.set hset⟩

variable {β γ : Type}

variable {c c' : Context β γ}

theorem register_registers {env : Env β γ} {typ : ERC} {pointee : Bytes} {contractAddr : Address}
    {remainingGas : UInt64} {err : Option String} {result : Except String Address}
    (h : register env typ pointee contractAddr remainingGas err c = .ok (c', result)) :
    Registers c.registry c'.registry := by
  unfold register at h
  cases err with
  | some e =>
    cases h
    exact .inl rfl
  | none =>
    obtain ⟨_, _, h⟩ := bind_eq_ok.mp h
    obtain ⟨set, hset, h⟩ := bind_eq_ok.mp h
    cases set with
    | error e =>
      cases h
      exact .inl rfl
    | ok registry =>
      cases h
      exact .inr ⟨.erc typ pointee contractAddr (typ.currentVersion env.ctx), hset⟩

theorem upsertERCPointer_registers {env : Env β γ} {evm : EVM β γ} {typ : ERC} {args : List Arg}
    {result : Except String Address} (h : upsertERCPointer env evm typ args c = .ok (c', result)) :
    Registers c.registry c'.registry := by
  unfold upsertERCPointer at h
  obtain ⟨pointee, _, h⟩ := bind_eq_ok.mp h
  dsimp only at h
  cases hpack : env.pack typ args with
  | error e =>
    rw [hpack] at h
    cases h
  | ok packed =>
    rw [hpack] at h
    obtain ⟨info, _, h⟩ := bind_eq_ok.mp h
    cases info with
    | none => exact register_registers h
    | some info =>
      obtain ⟨existingAddr, version⟩ := info
      have hset := register_registers h
      exact hset

structure MsgRegisterPointer where
  pointerType : Kind
  ercAddress : Bytes

structure Server where
  bech32 : Bech32
  ctx : Ctx
  registerPointerDisabled : Bool
  hexToAddress : Bytes → Address
  getStoredPointerCodeID : CW → UInt64
  /-- The error of `Migrate`, for a contract and a code. -/
  migrate : AccAddress → UInt64 → Option String
  /-- `Instantiate`, for a code, a payload of one field and a label. -/
  instantiate : UInt64 → Bytes × Bytes → Bytes → Except String AccAddress

def CW.typ : CW → String
  | erc20 => "erc20"
  | erc721 => "erc721"
  | erc1155 => "erc1155"

def registerContract (server : Server) (k : CW) (msg : MsgRegisterPointer)
    (pointerAddr : AccAddress) (c : Context β γ) : Outcome (Context β γ × Except Bytes Bytes) := do
  let addr := server.bech32.string pointerAddr
  let event : Event := ⟨Bytes.ofString "pointer_registered",
    [(Bytes.ofString "pointer_type", Bytes.ofString k.typ),
      (Bytes.ofString "pointer_address", addr), (Bytes.ofString "pointee", msg.ercAddress),
      (Bytes.ofString "pointer_version", Bytes.ofString (toString k.currentVersion.toNat))]⟩
  match ← k.setPointer c.registry (server.hexToAddress msg.ercAddress) addr with
  | .error e => return ({ c with events := c.events ++ [event] }, .error (Bytes.ofString e))
  | .ok registry =>
    return ({ c with registry := registry, events := c.events ++ [event] }, .ok addr)

def registerPointer (server : Server) (msg : MsgRegisterPointer) (c : Context β γ) :
    Outcome (Context β γ × Except Bytes Bytes) :=
  if server.registerPointerDisabled then
    .ok (c, .error (Bytes.ofString "registering CW->ERC pointers has been disabled"))
  else match msg.pointerType with
    | .erc _ => .error (.raised "unknown pointer type")
    | .cw k => do
      let codeID := server.getStoredPointerCodeID k
      match ← k.getPointer server.bech32 server.ctx c.registry
          (server.hexToAddress msg.ercAddress) with
      | some (existingPointer, existingVersion) =>
        if k.currentVersion ≤ existingVersion then
          return (c, .error (Bytes.ofString "pointer " ++
            server.bech32.string existingPointer ++ Bytes.ofString
              (" already registered at version " ++ toString existingVersion.toNat)))
        else match server.migrate existingPointer codeID with
          | some e => return (c, .error (Bytes.ofString e))
          | none => registerContract server k msg existingPointer c
      | none =>
        match server.instantiate codeID (Bytes.ofString (k.typ ++ "_address"), msg.ercAddress)
          (Bytes.ofString "Pointer of " ++ msg.ercAddress) with
        | .error e => return (c, .error (Bytes.ofString e))
        | .ok pointerAddr => registerContract server k msg pointerAddr c

theorem registerContract_registers {server : Server} {k : CW} {msg : MsgRegisterPointer}
    {pointerAddr : AccAddress} {result : Except Bytes Bytes}
    (h : registerContract server k msg pointerAddr c = .ok (c', result)) :
    Registers c.registry c'.registry := by
  unfold registerContract at h
  obtain ⟨set, hset, h⟩ := bind_eq_ok.mp h
  cases set with
  | error e =>
    cases h
    exact .inl rfl
  | ok registry =>
    cases h
    exact .inr ⟨.cw k _ _ k.currentVersion, hset⟩

theorem registerPointer_registers {server : Server} {msg : MsgRegisterPointer}
    {result : Except Bytes Bytes} (h : registerPointer server msg c = .ok (c', result)) :
    Registers c.registry c'.registry := by
  unfold registerPointer at h
  split at h
  · cases h
    exact .inl rfl
  · split at h
    · cases h
    · obtain ⟨info, _, h⟩ := bind_eq_ok.mp h
      split at h
      · split at h
        · cases h
          exact .inl rfl
        · split at h
          · cases h
            exact .inl rfl
          · exact registerContract_registers h
      · split at h
        · cases h
          exact .inl rfl
        · exact registerContract_registers h

end Tabi.Registry
