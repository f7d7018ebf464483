import Tabi.StateDB.Flat
import Mathlib.Logic.Relation

/-!
# StateDB — what an operation can change

An operation of the flat database reverts to a copy, or it changes the current world, possibly after
taking a copy.
-/

namespace Tabi.StateDB

open Support Relation

variable {β γ : Type}

structure Permits where
  foreign : Bool
  destruct : Bool

/-- `native` calls run code of other modules, `SetBalance` mints, and `AddSurplus` writes the
surplus; the self-destructs mark accounts. -/
def Op.permits : Op β γ → Permits
  | .setBalance .. | .addSurplus .. | .native .. => ⟨true, false⟩
  | .selfDestruct .. | .selfdestruct6780 .. => ⟨false, true⟩
  | _ => ⟨false, false⟩

def Op.conserving (op : Op β γ) : Bool := !op.permits.foreign

def Op.destructs (op : Op β γ) : Bool := op.permits.destruct

namespace Flat

inductive Change (k : Keepers β γ) (p : Permits) (t : Flat β γ) : Flat β γ → Prop where
  | keeper (e : Effect β γ) (h : e.writes.bank = 1) : Change k p t (t.commit e)
  | debit {a : Address} {amt : ℤ} {t' : Flat β γ} (hamt : 0 < amt) (h : t.debit k a amt = .ok t') :
      Change k p t t'
  | credit {a : Address} {amt : ℤ} {t' : Flat β γ} (hamt : 0 < amt)
      (h : t.credit k a amt = .ok t') : Change k p t t'
  | memory (w : World β γ) (hstore : w.store = t.cur.store) (hstatus : w.status = t.cur.status)
      (hsurplus : w.surplus = t.cur.surplus) (hlogs : w.logs = t.cur.logs) :
      Change k p t { t with cur := w }
  | log (l : Log) : Change k p t (t.addLog l)
  | mark (a : Address) (status : AccountStatus) (h : status = .deleted → p.destruct = true) :
      Change k p t (t.markAccount a status)
  | suppress (b : Bool) : Change k p t (t.suppressEvents b)
  | fail (e : String) : Change k p t (t.setErr e)
  | foreign (h : p.foreign = true) (e : Effect β γ) : Change k p t (t.commit e)
  | book (h : p.foreign = true) (d : ℤ) : Change k p t (t.bookSurplus d)

abbrev Changes (k : Keepers β γ) (p : Permits) : Flat β γ → Flat β γ → Prop :=
  ReflTransGen (Change k p)

variable {k : Keepers β γ} {p : Permits} {t t' : Flat β γ}

theorem Changes.trans {t₁ t₂ t₃ : Flat β γ} (h : Changes k p t₁ t₂) (h' : Changes k p t₂ t₃) :
    Changes k p t₁ t₃ := ReflTransGen.trans h h'

variable {a : Address} {amt : ℤ}

theorem subBalance_changes (h : t.subBalance k a amt = .ok t') : Changes k p t t' := by
  unfold subBalance at h
  split at h
  · cases h; exact .refl
  · split at h
    · exact .single (.credit (by omega) h)
    · exact .single (.debit (by omega) h)

theorem addBalance_changes (h : t.addBalance k a amt = .ok t') : Changes k p t t' := by
  unfold addBalance at h
  split at h
  · cases h; exact .refl
  · split at h
    · exact .single (.debit (by omega) h)
    · exact .single (.credit (by omega) h)

theorem transferWithoutEvents_changes {b : Address} (h : t.transferWithoutEvents k a b amt = .ok t')
    : Changes k p t t' := by
  obtain ⟨t₁, h₁, h⟩ := bind_eq_ok.mp h
  obtain ⟨t₂, h₂, h⟩ := bind_eq_ok.mp h
  cases h
  exact .head (.suppress true) ((subBalance_changes h₁).trans
    ((addBalance_changes h₂).tail (.suppress false)))

theorem send_changes {src dst : AccAddress} (h : t.send k src dst amt = .ok t') :
    Changes k ⟨true, false⟩ t t' := by
  obtain ⟨⟨atabi, wei⟩, -, h⟩ := bind_eq_ok.mp h
  dsimp only at h
  split at h
  · cases h; exact .single (.fail _)
  · cases h; exact .single (.foreign rfl _)

theorem panicOnErr_eq (h : t.panicOnErr = .ok t') : t' = t := by
  unfold panicOnErr at h
  split at h
  · cases h
  · cases h; rfl

theorem mintFor_changes (h : t.mintFor k amt = .ok t') : Changes k ⟨true, false⟩ t t' := by
  obtain ⟨⟨atabi, wei⟩, -, h⟩ := bind_eq_ok.mp h
  obtain ⟨coin, -, h⟩ := bind_eq_ok.mp h
  split at h
  · cases h
  · split at h
    · cases h
    · cases h; exact .single (.foreign rfl _)

theorem setBalance_changes (h : t.setBalance k a amt = .ok t') : Changes k ⟨true, false⟩ t t' := by
  unfold setBalance at h
  split at h
  · cases h
  · obtain ⟨balance, -, h⟩ := bind_eq_ok.mp h
    obtain ⟨t₁, h₁, h⟩ := bind_eq_ok.mp h
    obtain ⟨t₂, h₂, h⟩ := bind_eq_ok.mp h
    obtain ⟨t₃, h₃, h⟩ := bind_eq_ok.mp h
    obtain ⟨t₄, h₄, h₅⟩ := bind_eq_ok.mp h
    rw [panicOnErr_eq h₅]
    rw [panicOnErr_eq h₂] at h₃
    exact (send_changes h₁).trans ((mintFor_changes h₃).trans (send_changes h₄))

theorem createAccount_changes (a : Address) : Changes k p t (t.createAccount a) := by
  unfold createAccount
  split
  · exact .single (.mark a .created nofun)
  · exact .head (.keeper _ rfl) (.single (.mark a .created nofun))

theorem foldl_changes {α : Type} {f : Flat β γ → α → Flat β γ} (h : ∀ t a, Changes k p t (f t a))
    (xs : List α) : Changes k p t (xs.foldl f t) := by
  induction xs generalizing t with
  | nil => exact .refl
  | cons a xs ih => exact (h t a).trans ih

theorem setStorage_changes (a : Address) (states : List (Hash × Hash)) :
    Changes k p t (t.setStorage a states) :=
  .head (.keeper (clearAccountState t.cur.store a) rfl)
    (foldl_changes (fun _ _ => .single (.keeper _ rfl)) states)

theorem dissociate_changes (a : Address) : Changes k p t (t.dissociate a) := by
  unfold dissociate
  split
  · exact .single (.keeper _ rfl)
  · exact .refl

theorem selfDestruct_changes (hp : p.destruct = true) (h : t.selfDestruct k a = .ok t') :
    Changes k p t t' := by
  obtain ⟨balance, -, h⟩ := bind_eq_ok.mp h
  obtain ⟨t₁, h₁, h⟩ := bind_eq_ok.mp h
  cases h
  exact (dissociate_changes a).trans ((subBalance_changes h₁).tail (.mark a .deleted fun _ => hp))

theorem addAddressToAccessList_change (a : Address) :
    Change k p t (t.addAddressToAccessList a) := .memory _ rfl rfl rfl rfl

theorem addSlotToAccessList_change (a : Address) (slot : Hash) :
    Change k p t (t.addSlotToAccessList a slot) := .memory _ rfl rfl rfl rfl

theorem addPrecompile_changes (a : Address) : Changes k p t (t.addPrecompile a) := by
  unfold addPrecompile
  split
  · exact .refl
  · exact .single (addAddressToAccessList_change a)

theorem addAccessTuple_changes (el : Address × List Hash) : Changes k p t (t.addAccessTuple el) :=
  .head (addAddressToAccessList_change el.1)
    (foldl_changes (fun _ slot => .single (addSlotToAccessList_change el.1 slot)) el.2)

theorem prepare_changes (sender coinbase : Address) (dest : Option Address)
    (precompiles : List Address) (txAccesses : List (Address × List Hash)) :
    Changes k p t.snapshot (t.prepare sender coinbase dest precompiles txAccesses) := by
  have warm : ∀ {t₁ t₂ : Flat β γ} (a : Address), Changes k p t₁ t₂ →
      Changes k p t₁ (t₂.addAddressToAccessList a) :=
    fun a h => h.tail (addAddressToAccessList_change a)
  refine warm coinbase (.trans (.trans ?_
    (foldl_changes (fun _ a => addPrecompile_changes a) precompiles))
    (foldl_changes (fun _ el => addAccessTuple_changes el) txAccesses))
  cases dest with
  | none => exact warm sender .refl
  | some dest => exact warm dest (warm sender .refl)

theorem step_cases {op : Op β γ} (h : step k op t = .ok t') :
    (∃ rev, op = .revertToSnapshot rev ∧ t.revertToSnapshot rev = .ok t') ∨
      Changes k op.permits t t' ∨ Changes k op.permits t.snapshot t' := by
  cases op with
  | revertToSnapshot rev => exact .inl ⟨rev, rfl, h⟩
  | snapshot => cases h; exact .inr (.inr .refl)
  | prepare a b d e f => cases h; exact .inr (.inr (prepare_changes a b d e f))
  | subBalance a amt => exact .inr (.inl (subBalance_changes h))
  | addBalance a amt => exact .inr (.inl (addBalance_changes h))
  | transferWithoutEvents a b amt => exact .inr (.inl (transferWithoutEvents_changes h))
  | setBalance a amt => exact .inr (.inl (setBalance_changes h))
  | createAccount a => cases h; exact .inr (.inl (createAccount_changes a))
  | selfDestruct a => exact .inr (.inl (selfDestruct_changes rfl h))
  | selfdestruct6780 a =>
    simp only [step, selfdestruct6780] at h
    split at h
    · exact .inr (.inl (selfDestruct_changes rfl h))
    · cases h; exact .inr (.inl .refl)
  | setStorage a states => cases h; exact .inr (.inl (setStorage_changes a states))
  | setState a key val => cases h; exact .inr (.inl (.single (.keeper _ rfl)))
  | setCode a code => cases h; exact .inr (.inl (.single (.keeper _ (setCode_bank ..))))
  | setNonce a nonce => cases h; exact .inr (.inl (.single (.keeper _ rfl)))
  | addSurplus z => cases h; exact .inr (.inl (.single (.book rfl _)))
  | native call => cases h; exact .inr (.inl (.single (.foreign rfl _)))
  | subRefund gas =>
    simp only [step, subRefund] at h
    split at h
    · cases h
    · cases h; exact .inr (.inl (.single (.memory _ rfl rfl rfl rfl)))
  | setTransientState a key val => cases h; exact .inr (.inl (.single (.memory _ rfl rfl rfl rfl)))
  | addRefund gas => cases h; exact .inr (.inl (.single (.memory _ rfl rfl rfl rfl)))
  | addAddressToAccessList a =>
    cases h; exact .inr (.inl (.single (addAddressToAccessList_change a)))
  | addSlotToAccessList a slot =>
    cases h; exact .inr (.inl (.single (addSlotToAccessList_change a slot)))
  | addLog l => cases h; exact .inr (.inl (.single (.log l)))

theorem moveBalance_cases {coins wei : BankCall β γ} {d : ℤ}
    (h : t.moveBalance coins wei d a amt = .ok t') :
    (∃ e, t' = t.setErr e) ∨ (∃ r e, t' = (t.commitBank r).setErr e) ∨
      ∃ parts addr r r', splitAtabiWeiAmount amt = .ok parts ∧
        coins t.cur.store addr parts.1 = .ok r ∧
        wei (t.commitBank r).cur.store addr parts.2 = .ok r' ∧
        t' = ((t.commitBank r).commitBank r').bookSurplus d := by
  obtain ⟨parts, hparts, h⟩ := bind_eq_ok.mp h
  dsimp only at h
  split at h
  · cases h; exact .inl ⟨_, rfl⟩
  · rename_i r hr
    split at h
    · cases h; exact .inr (.inl ⟨_, _, rfl⟩)
    · rename_i r' hr'
      cases h
      exact .inr (.inr ⟨parts, _, r, r', hparts, hr, hr', rfl⟩)

end Flat

end Tabi.StateDB
