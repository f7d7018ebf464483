import Tabi.StateDB.Snapshots

/-!
# StateDB — what a transaction keeps in the stores

A property of the stores that every keeper call keeps is kept by a whole transaction: along every
run, in every world a revert can bring back, and through `Finalize`.
-/

namespace Tabi.StateDB

open Support

variable {β γ : Type}

def KeptByBank (P : Stores β γ → Prop) : Prop :=
  ∀ (v : Stores β γ) (p : Patch β γ), P v → P (Writes.ofBank p • v)

structure Kept (k : Keepers β γ) (P : Stores β γ → Prop) (ops : List (Op β γ)) : Prop where
  bank : KeptByBank P
  clear : ∀ (v : Stores β γ) (a : Address), P v → P ((clearAccountState v a).writes • v)
  state : ∀ (v : Stores β γ) (a : Address) (key val : Hash), P v →
    P ((setState a key val : Effect β γ).writes • v)
  nonce : ∀ (v : Stores β γ) (a : Address) (n : UInt64), P v →
    P ((setNonce a n : Effect β γ).writes • v)
  code : ∀ (v : Stores β γ) (a : Address) (code : Bytes), .setCode a code ∈ ops → P v →
    P ((setCode k v a code).writes • v)
  dissociate : ∀ (v : Stores β γ) (a : Address) (t : AccAddress), getTabiAddress v a = some t →
    P v → P ((deleteAddressMapping t a : Effect β γ).writes • v)
  native : ∀ (v : Stores β γ) (call : Stores β γ → Effect β γ), .native call ∈ ops → P v →
    P ((call v).writes • v)

namespace Flat

variable {k : Keepers β γ} {P : Stores β γ → Prop} {ops : List (Op β γ)} {t t' : Flat β γ}

variable {a : Address} {amt : ℤ}

theorem moveBalance_store (hbank : KeptByBank P) {coins wei : BankCall β γ} {d : ℤ}
    (h : t.moveBalance coins wei d a amt = .ok t') (hP : P t.cur.store) : P t'.cur.store := by
  rcases moveBalance_cases h with ⟨e, rfl⟩ | ⟨r, e, rfl⟩ | ⟨_, _, r, r', -, -, -, rfl⟩
  · exact hP
  · exact hbank _ _ hP
  · exact hbank _ _ (hbank _ _ hP)

theorem subBalance_store (hbank : KeptByBank P) (h : t.subBalance k a amt = .ok t')
    (hP : P t.cur.store) : P t'.cur.store := by
  unfold subBalance at h
  split at h
  · cases h
    exact hP
  · split at h
    · exact moveBalance_store hbank h hP
    · exact moveBalance_store hbank h hP

theorem addBalance_store (hbank : KeptByBank P) (h : t.addBalance k a amt = .ok t')
    (hP : P t.cur.store) : P t'.cur.store := by
  unfold addBalance at h
  split at h
  · cases h
    exact hP
  · split at h
    · exact moveBalance_store hbank h hP
    · exact moveBalance_store hbank h hP

theorem send_store (hbank : KeptByBank P) {src dst : AccAddress} (h : t.send k src dst amt = .ok t')
    (hP : P t.cur.store) : P t'.cur.store := by
  obtain ⟨⟨atabi, wei⟩, -, h⟩ := bind_eq_ok.mp h
  dsimp only at h
  split at h
  · cases h
    exact hP
  · cases h
    exact hbank _ _ hP

theorem mintFor_store (hbank : KeptByBank P) (h : t.mintFor k amt = .ok t') (hP : P t.cur.store) :
    P t'.cur.store := by
  obtain ⟨⟨atabi, wei⟩, -, h⟩ := bind_eq_ok.mp h
  obtain ⟨coin, -, h⟩ := bind_eq_ok.mp h
  split at h
  · cases h
  · split at h
    · cases h
    · cases h
      exact hbank _ _ hP

theorem setBalance_store (hbank : KeptByBank P) (h : t.setBalance k a amt = .ok t')
    (hP : P t.cur.store) : P t'.cur.store := by
  unfold setBalance at h
  split at h
  · cases h
  · obtain ⟨balance, -, h⟩ := bind_eq_ok.mp h
    obtain ⟨t₁, h₁, h⟩ := bind_eq_ok.mp h
    obtain ⟨t₂, h₂, h⟩ := bind_eq_ok.mp h
    obtain ⟨t₃, h₃, h⟩ := bind_eq_ok.mp h
    obtain ⟨t₄, h₄, h₅⟩ := bind_eq_ok.mp h
    rw [panicOnErr_eq h₅]
    rw [panicOnErr_eq h₂] at h₃
    exact send_store hbank h₄ (mintFor_store hbank h₃ (send_store hbank h₁ hP))

theorem createAccount_store (hk : Kept k P ops) (a : Address) (hP : P t.cur.store) :
    P (t.createAccount a).cur.store := by
  unfold createAccount
  split
  · exact hP
  · exact hk.clear _ a hP

theorem setStorage_store (hk : Kept k P ops) (a : Address) (states : List (Hash × Hash))
    (hP : P t.cur.store) : P (t.setStorage a states).cur.store := by
  have hloop : ∀ (l : List (Hash × Hash)) {t : Flat β γ}, P t.cur.store →
      P (l.foldl (fun t kv => t.commit (setState a kv.1 kv.2)) t).cur.store := by
    intro l
    induction l with
    | nil => exact fun hP => hP
    | cons kv l ih => exact fun hP => ih (hk.state _ a kv.1 kv.2 hP)
  exact hloop states (hk.clear _ a hP)

theorem selfDestruct_store (hk : Kept k P ops) (h : t.selfDestruct k a = .ok t')
    (hP : P t.cur.store) : P t'.cur.store := by
  obtain ⟨balance, -, h⟩ := bind_eq_ok.mp h
  obtain ⟨t₁, h₁, h⟩ := bind_eq_ok.mp h
  cases h
  have hdissociate : P (t.dissociate a).cur.store := by
    unfold dissociate
    split
    · rename_i tabiAddr hassoc
      exact hk.dissociate _ a tabiAddr hassoc hP
    · exact hP
  have hdebit : P t₁.cur.store := subBalance_store hk.bank h₁ hdissociate
  exact hdebit

theorem prepare_store (a b : Address) (d : Option Address) (e : List Address)
    (f : List (Address × List Hash)) : (t.prepare a b d e f).cur.store = t.cur.store := by
  have hslots : ∀ (el : Address × List Hash) (t : Flat β γ),
      (t.addAccessTuple el).cur.store = t.cur.store := by
    intro el t
    have hloop : ∀ (keys : List Hash) (t : Flat β γ),
        (keys.foldl (fun t key => t.addSlotToAccessList el.1 key) t).cur.store = t.cur.store := by
      intro keys
      induction keys with
      | nil => exact fun _ => rfl
      | cons key keys ih => exact fun t => ih (t.addSlotToAccessList el.1 key)
    exact hloop el.2 (t.addAddressToAccessList el.1)
  have htuples : ∀ (l : List (Address × List Hash)) (t : Flat β γ),
      (l.foldl addAccessTuple t).cur.store = t.cur.store := by
    intro l
    induction l with
    | nil => exact fun _ => rfl
    | cons el l ih => exact fun t => (ih (t.addAccessTuple el)).trans (hslots el t)
  have hprecompiles : ∀ (l : List Address) (t : Flat β γ),
      (l.foldl addPrecompile t).cur.store = t.cur.store := by
    intro l
    induction l with
    | nil => exact fun _ => rfl
    | cons p l ih =>
      intro t
      refine (ih (t.addPrecompile p)).trans ?_
      unfold addPrecompile
      split
      · rfl
      · rfl
  refine (htuples f _).trans ((hprecompiles e _).trans ?_)
  cases d with
  | none => rfl
  | some d => rfl

def Held (P : Stores β γ → Prop) (t : Flat β γ) : Prop :=
  P t.cur.store ∧ ∀ w ∈ t.saved, P w.store

theorem step_store (hk : Kept k P ops) {op : Op β γ} (hop : op ∈ ops)
    (hrev : ∀ rev, op ≠ .revertToSnapshot rev) (h : step k op t = .ok t') (hP : P t.cur.store) :
    P t'.cur.store := by
  cases op with
  | revertToSnapshot rev => exact absurd rfl (hrev rev)
  | subBalance a amt => exact subBalance_store hk.bank h hP
  | addBalance a amt => exact addBalance_store hk.bank h hP
  | transferWithoutEvents a b amt =>
    obtain ⟨t₁, h₁, h⟩ := bind_eq_ok.mp h
    obtain ⟨t₂, h₂, h⟩ := bind_eq_ok.mp h
    cases h
    have h₁' : P t₁.cur.store := subBalance_store hk.bank h₁ hP
    have h₂' : P t₂.cur.store := addBalance_store hk.bank h₂ h₁'
    exact h₂'
  | setBalance a amt => exact setBalance_store hk.bank h hP
  | createAccount a => cases h; exact createAccount_store hk a hP
  | selfDestruct a => exact selfDestruct_store hk h hP
  | selfdestruct6780 a =>
    simp only [step, selfdestruct6780] at h
    split at h
    · exact selfDestruct_store hk h hP
    · cases h; exact hP
  | setState a key val => cases h; exact hk.state _ a key val hP
  | setStorage a states => cases h; exact setStorage_store hk a states hP
  | setCode a code => cases h; exact hk.code _ a code hop hP
  | setNonce a n => cases h; exact hk.nonce _ a n hP
  | subRefund gas =>
    simp only [step, subRefund] at h
    split at h
    · cases h
    · cases h; exact hP
  | prepare a b d e f =>
    cases h
    exact (prepare_store a b d e f).symm ▸ hP
  | native call => cases h; exact hk.native _ call hop hP
  | setTransientState a key val | addRefund gas | addAddressToAccessList a
  | addSlotToAccessList a slot | addLog l | addSurplus z | snapshot => cases h; exact hP

theorem revertToSnapshot_held {rev : Nat} (hP : t.Held P) (h : t.revertToSnapshot rev = .ok t') :
    t'.Held P := by
  obtain ⟨w, hw, rfl⟩ := revertToSnapshot_eq_ok h
  exact ⟨hP.2 w (List.mem_of_getElem? hw), fun w' hw' => hP.2 w' (List.mem_of_mem_take hw')⟩

theorem step_held (hk : Kept k P ops) {op : Op β γ} (hop : op ∈ ops) (hP : t.Held P)
    (h : step k op t = .ok t') : t'.Held P := by
  by_cases hrev : ∃ rev, op = .revertToSnapshot rev
  · obtain ⟨rev, rfl⟩ := hrev
    exact revertToSnapshot_held hP h
  · refine ⟨step_store hk hop (fun rev e => hrev ⟨rev, e⟩) h hP.1, ?_⟩
    rcases step_cases h with ⟨rev, rfl, -⟩ | hchanges | hchanges
    · exact absurd ⟨rev, rfl⟩ hrev
    · rw [hchanges.saved_frame.1]
      exact hP.2
    · -- the operation took a copy of the current world first
      rw [hchanges.saved_frame.1]
      intro w hw
      rcases List.mem_append.mp hw with hw | hw
      · exact hP.2 w hw
      · rw [List.mem_singleton.mp hw]
        exact hP.1

theorem run_held (hk : Kept k P ops) (hP : t.Held P) (h : run k ops t = .ok t') : t'.Held P :=
  Outcome.foldlM_invariant (I := Held P) (fun _ _ _ hop hI hs => step_held hk hop hI hs) hP h

theorem settle_store (hk : Kept k P ops) {residuals clears : List (Address × AccountStatus)}
    (h : settle k residuals clears t = .ok t') (hP : P t.cur.store) : P t'.cur.store := by
  obtain ⟨t₁, h₁, h⟩ := bind_eq_ok.mp h
  cases h
  have hresiduals : P t₁.cur.store := by
    refine Outcome.foldlM_invariant (I := fun t => P t.cur.store) ?_ hP h₁
    intro t entry t' _ hP h
    unfold handleResidualFunds at h
    split at h
    · cases h
      exact hP
    · obtain ⟨residual, -, h⟩ := bind_eq_ok.mp h
      split at h
      · cases h
        exact hP
      · obtain ⟨t₂, h₂, h⟩ := bind_eq_ok.mp h
        exact addBalance_store hk.bank h (subBalance_store hk.bank h₂ hP)
  have hclears : ∀ (l : List (Address × AccountStatus)) {t : Flat β γ}, P t.cur.store →
      P (l.foldl clearIfDestructed t).cur.store := by
    intro l
    induction l with
    | nil => exact fun hP => hP
    | cons entry l ih =>
      intro t hP
      refine ih ?_
      unfold clearIfDestructed
      split
      · exact hP
      · exact hk.clear _ entry.1 hP
  exact hclears clears hresiduals

end Flat

namespace DBImpl

variable {k : Keepers β γ} {P : Stores β γ → Prop} {ops : List (Op β γ)}

theorem finalize_err {s s' : DBImpl β γ} {order : MapOrder} {surplus : ℤ}
    (h : s.finalize k order = .ok (s', .ok surplus)) : s.err = none := by
  unfold finalize at h
  split at h
  · cases h
  · split at h
    · cases h
    · assumption

theorem transaction_keeps (hk : Kept k P ops) {root : Stores β γ} {ctx : Ctx β γ} {txIndex : UInt64}
    {isTracing simulation : Bool} {s s' : DBImpl β γ} {order : MapOrder} {surplus : ℤ}
    (hP : P (ctx.dirty • root))
    (hrun : run k ops (newDBImpl k root ctx txIndex isTracing simulation) = .ok s)
    (hfin : s.finalize k order = .ok (s', .ok surplus)) : P s'.originalStores := by
  have hstart : (newDBImpl k root ctx txIndex isTracing simulation).abs.Held P := by
    rw [abs_newDBImpl]
    exact ⟨hP, fun w hw => List.mem_singleton.mp hw ▸ hP⟩
  have hend : P s.abs.cur.store := (Flat.run_held hk hstart ((run_simulates k ops).ok hrun)).1
  obtain ⟨s₁, hsettle, -, hstores, -⟩ := finalize_settled (finalize_err hfin) hfin
  rw [hstores]
  refine Outcome.foldlM_invariant (I := fun t => P t.cur.store) ?_ hend
    ((Simulates.foldlM (fun l => simulates_settle k l.1 l.2) (s.settlements order)).ok hsettle)
  exact fun _ _ _ _ hP hs => Flat.settle_store hk hs hP

end DBImpl

end Tabi.StateDB
