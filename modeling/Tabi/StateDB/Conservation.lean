import Tabi.StateDB.Bank
import Tabi.StateDB.Finalize

/-!
# StateDB — value conservation

The state database moves value by bank calls and books every wei that leaves the bank as surplus of
the newest layer.
-/

namespace Tabi.StateDB

open Support

variable {β γ : Type}

section Law

variable {k : Keepers β γ} (B : BankTotal k.bank) (T : ℤ)

def World.Balanced (w : World β γ) : Prop := B.total w.store + w.surplus = T

def Flat.Balanced (t : Flat β γ) : Prop := ∀ w ∈ t.cur :: t.saved, w.Balanced B T

/-- A step that does not forget an error, and keeps the balance while there is none. -/
structure Flat.Keeps (t t' : Flat β γ) : Prop where
  err : t'.err = none → t.err = none
  balanced : t'.err = none → t.Balanced B T → t'.Balanced B T

namespace Flat

variable {B T} {t t' : Flat β γ}

theorem Keeps.refl (t : Flat β γ) : Keeps B T t t := ⟨id, fun _ h => h⟩

theorem Keeps.trans {t₁ t₂ t₃ : Flat β γ} (h : Keeps B T t₁ t₂) (h' : Keeps B T t₂ t₃) :
    Keeps B T t₁ t₃ :=
  ⟨fun e => h.err (h'.err e), fun e b => h'.balanced e (h.balanced (h'.err e) b)⟩

theorem Keeps.of_cur (herr : t'.err = t.err) (hsaved : t'.saved = t.saved)
    (h : B.total t'.cur.store + t'.cur.surplus = B.total t.cur.store + t.cur.surplus) :
    Keeps B T t t' := by
  refine ⟨fun e => herr ▸ e, fun _ hb w hw => ?_⟩
  rw [hsaved] at hw
  rcases List.mem_cons.mp hw with rfl | hw
  · exact h.trans (hb t.cur List.mem_cons_self)
  · exact hb w (List.mem_cons_of_mem _ hw)

theorem Keeps.of_err {e : String} (h : t'.err = some e) : Keeps B T t t' :=
  ⟨fun e' => (by rw [h] at e'; cases e'), fun e' => (by rw [h] at e'; cases e')⟩

variable {a : Address} {amt : ℤ}

theorem moveBalance_keeps {coins wei : BankCall β γ} {e : ℤ}
    (hcoins : ∀ {v a amt r}, coins v a amt = .ok r →
      B.total (Writes.ofBank r.1 • v) = B.total v + e * (amt * atabiToWeiMultiplier))
    (hwei : ∀ {v a amt r}, wei v a amt = .ok r →
      B.total (Writes.ofBank r.1 • v) = B.total v + e * amt) (hamt : 0 < amt)
    (h : t.moveBalance coins wei (-(e * amt)) a amt = .ok t') :
    Keeps B T t t' := by
  rcases moveBalance_cases h with ⟨e, rfl⟩ | ⟨r, e, rfl⟩ | ⟨parts, addr, r, r', hp, hr, hr', rfl⟩
  · exact .of_err rfl
  · exact .of_err rfl
  · refine .of_cur rfl rfl ?_
    have hparts := splitAtabiWeiAmount_value (le_of_lt hamt) hp
    have h₁ : B.total (t.commitBank r).cur.store = _ := hcoins hr
    have h₂ : B.total ((t.commitBank r).commitBank r').cur.store = _ := hwei hr'
    show B.total ((t.commitBank r).commitBank r').cur.store + (t.cur.surplus + -(e * amt)) = _
    rw [h₂, h₁, ← hparts]
    ring

theorem debit_keeps (hamt : 0 < amt) (h : t.debit k a amt = .ok t') : Keeps B T t t' := by
  refine moveBalance_keeps (e := -1) (fun hr => ?_) (fun hr => ?_) hamt
    (by rw [neg_one_mul, neg_neg]; exact h)
  · rw [B.subUnlockedCoins hr]; ring
  · rw [B.subWei hr]; ring

theorem credit_keeps (hamt : 0 < amt) (h : t.credit k a amt = .ok t') : Keeps B T t t' := by
  refine moveBalance_keeps (e := 1) (fun hr => ?_) (fun hr => ?_) hamt
    (by rw [one_mul]; exact h)
  · rw [B.addCoins hr, one_mul]
  · rw [B.addWei hr, one_mul]

theorem Change.keeps {p : Permits} (hp : p.foreign = false) (h : Change k p t t') :
    Keeps B T t t' := by
  cases h with
  | keeper e he =>
    refine .of_cur rfl rfl ?_
    show B.total (e.writes • t.cur.store) + _ = _
    rw [Books.total, smul_bank_of_one he]
    rfl
  | debit hamt h => exact debit_keeps hamt h
  | credit hamt h => exact credit_keeps hamt h
  | memory w hstore _ hsurplus _ => exact .of_cur rfl rfl (by rw [hstore, hsurplus])
  | log l => exact .of_cur rfl rfl rfl
  | mark a status => exact .of_cur rfl rfl rfl
  | suppress b => exact .of_cur rfl rfl rfl
  | fail e => exact .of_err rfl
  | foreign h => rw [hp] at h; cases h
  | book h => rw [hp] at h; cases h

theorem Changes.keeps {p : Permits} (hp : p.foreign = false) (h : Changes k p t t') :
    Keeps B T t t' := by
  induction h with
  | refl => exact .refl _
  | tail _ hstep ih => exact ih.trans (hstep.keeps hp)

theorem snapshot_keeps : Keeps B T t t.snapshot := by
  refine ⟨id, fun _ hb w hw => hb w ?_⟩
  simp only [snapshot, List.mem_cons, List.mem_append, List.not_mem_nil, or_false] at hw ⊢
  tauto

theorem revertToSnapshot_keeps {rev : Nat} (h : t.revertToSnapshot rev = .ok t') :
    Keeps B T t t' := by
  unfold revertToSnapshot at h
  split at h
  · rename_i w hw
    cases h
    refine ⟨id, fun _ hb w' hw' => ?_⟩
    rcases List.mem_cons.mp hw' with rfl | hw'
    · exact hb _ (List.mem_cons_of_mem _ (List.mem_of_getElem? hw))
    · exact hb w' (List.mem_cons_of_mem _ (List.mem_of_mem_take hw'))
  · cases h

theorem step_keeps {op : Op β γ} (hop : op.conserving = true) (h : step k op t = .ok t') :
    Keeps B T t t' := by
  have hp : op.permits.foreign = false := by simpa [Op.conserving] using hop
  rcases step_cases h with ⟨rev, -, h⟩ | h | h
  · exact revertToSnapshot_keeps h
  · exact h.keeps hp
  · exact snapshot_keeps.trans (h.keeps hp)

theorem run_keeps {ops : List (Op β γ)} (hops : ∀ op ∈ ops, op.conserving = true)
    (h : run k ops t = .ok t') : Keeps B T t t' :=
  Outcome.foldlM_invariant (I := Keeps B T t)
    (fun _ op _ hop hI hs => hI.trans (step_keeps (hops op hop) hs)) (.refl t) h

end Flat

end Law

/-- **Value conservation.**  After every run of conserving operations that ends without a recorded
error, the wei in the bank seen through the current context plus the surplus of all layers is
what it was at `NewDBImpl`.  If `Finalize` then returns and still no error is recorded, the bank
total it leaves in the original context is the initial total minus the surplus it returns. -/
theorem value_conservation {k : Keepers β γ} (B : BankTotal k.bank) (root : Stores β γ)
    (ctx : Ctx β γ) (txIndex : UInt64) (isTracing : Bool) {ops : List (Op β γ)}
    (hops : ∀ op ∈ ops, op.conserving = true) {s : DBImpl β γ}
    (hrun : DBImpl.run k ops (.newDBImpl k root ctx txIndex isTracing false) = .ok s)
    (herr : s.err = none) : let s₀ := DBImpl.newDBImpl k root ctx txIndex isTracing false
    B.total s.view + s.totalSurplus = B.total s₀.view + s₀.totalSurplus ∧
    ∀ (order : MapOrder) (s' : DBImpl β γ) (r : Except String ℤ),
      s.finalize k order = .ok (s', r) → s'.err = none →
        ∃ surplus, r = .ok surplus ∧ B.total s'.originalStores = B.total s₀.view - surplus := by
  intro s₀
  have habs := DBImpl.abs_newDBImpl k root ctx txIndex isTracing false
  have hs₀ : s₀.totalSurplus = 0 := by
    rw [DBImpl.totalSurplus_abs, habs]
    rfl
  -- the world at the start is balanced at its own total
  have hstart : s₀.abs.Balanced B (B.total s₀.view) := by
    intro w hw
    rw [DBImpl.view_eq_abs, habs] at *
    have : w = .start (ctx.dirty • root) ctx.events := by simpa [Flat.new] using hw
    subst this
    exact add_zero _
  have hkeeps := Flat.run_keeps (B := B) (T := B.total s₀.view) hops
    ((DBImpl.run_simulates k ops).ok hrun)
  have hs : s.abs.Balanced B (B.total s₀.view) := hkeeps.balanced herr hstart
  refine ⟨?_, fun order s' r hfin herr' => ?_⟩
  · rw [hs₀, add_zero, DBImpl.view_eq_abs s, DBImpl.totalSurplus_abs s]
    exact hs _ List.mem_cons_self
  · obtain ⟨s₁, hch, he, hstores, rfl, -⟩ := DBImpl.finalize_cases ⟨false, false⟩ herr hfin
    have hb : s₁.abs.Balanced B (B.total s₀.view) :=
      (hch.keeps rfl).balanced (he.symm.trans herr') hs
    have hcur : B.total s₁.abs.cur.store + s₁.abs.cur.surplus = B.total s₀.view :=
      hb _ List.mem_cons_self
    refine ⟨_, rfl, ?_⟩
    rw [hstores, ← hcur]
    ring

def busyTransaction : List (Op AccAddress ℤ) :=
  [.subBalance alice 21000, .snapshot, .transferWithoutEvents alice bob 5000000000007,
    .revertToSnapshot 1, .createAccount bob, .addBalance bob 1, .selfdestruct6780 bob,
    .addBalance bob 8]

/-- A transaction that ends without an error and is finalised. -/
theorem value_conservation_busyTransaction :
    ∃ s s' surplus,
      DBImpl.run (ledgerKeepers twoUsers) busyTransaction
        (.newDBImpl (ledgerKeepers twoUsers) aliceRich ⟨1, []⟩ 0 false false) = .ok s ∧
      s.err = none ∧
      s.finalize (ledgerKeepers twoUsers) entryOrder = .ok (s', .ok surplus) ∧ s'.err = none ∧
      (ledgerBooks twoUsers).total s'.originalStores =
        (ledgerBooks twoUsers).total
          (DBImpl.newDBImpl (ledgerKeepers twoUsers) aliceRich ⟨1, []⟩ 0 false false).view -
            surplus := by
  have hnd : twoUsers.Nodup := by decide
  have hops : ∀ op ∈ busyTransaction, op.conserving = true := by
    simp [busyTransaction, Op.conserving, Op.permits]
  obtain ⟨s, s', surplus, hrun, herr, hfin, herr'⟩ : ∃ s s' surplus,
      DBImpl.run (ledgerKeepers twoUsers) busyTransaction
        (.newDBImpl (ledgerKeepers twoUsers) aliceRich ⟨1, []⟩ 0 false false) = .ok s ∧
      s.err = none ∧
      s.finalize (ledgerKeepers twoUsers) entryOrder = .ok (s', .ok surplus) ∧ s'.err = none :=
    ⟨_, _, _, rfl, rfl, rfl, rfl⟩
  obtain ⟨-, htotal⟩ := value_conservation (k := ledgerKeepers twoUsers) (ledgerTotal hnd)
    aliceRich ⟨1, []⟩ 0 false hops hrun herr
  obtain ⟨_, hr, htotal⟩ := htotal entryOrder s' (.ok surplus) hfin herr'
  cases hr
  exact ⟨s, s', surplus, hrun, herr, hfin, herr', htotal⟩

end Tabi.StateDB
