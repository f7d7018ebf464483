import Tabi.StateDB.Flat
import Tabi.Support.Simulation

/-!
# StateDB — the layered database refines the flat one

`abs` reads the flat database off the layers: the current world is all layers folded together
(`World.extend`), and the copies are the folds of the layers up to each snapshot.
-/

namespace Tabi.StateDB

open Support

variable {β γ : Type}

/-! ### Folding layers -/

def World.extend (w : World β γ) (c : Ctx β γ) (ts : TemporaryState) : World β γ where
  store := c.dirty • w.store
  events := w.events ++ c.events
  logs := w.logs ++ ts.logs
  transient a h := (ts.transientStates a h).getD (w.transient a h)
  status a := (ts.transientAccounts.lookup a).or (w.status a)
  refund :=
    match ts.transientModuleStates gasRefundKey with
    | some bz => .ofNat (beNat bz.bytes)
    | none => w.refund
  accessAddress a := ts.transientAccessLists.hasAddress a || w.accessAddress a
  accessSlot a h := ts.transientAccessLists.hasSlot a h || w.accessSlot a h
  surplus := w.surplus + ts.surplus

def World.stack (w : World β γ) (layers : List (Ctx β γ × TemporaryState)) : World β γ :=
  layers.foldl (fun w l => w.extend l.1 l.2) w

theorem World.extend_new (w : World β γ) : w.extend ⟨1, []⟩ newTemporaryState = w := by
  simp [World.extend, newTemporaryState, AccessList.empty, AccessList.hasAddress,
    AccessList.hasSlot]

namespace DBImpl

def history (s : DBImpl β γ) : List (Ctx β γ × TemporaryState) :=
  s.snapshottedCtxs.zip s.tempStatesHist

def below (s : DBImpl β γ) : World β γ := (World.start s.root []).stack s.history

def abs (s : DBImpl β γ) : Flat β γ where
  cur := s.below.extend s.ctx s.tempStateCurrent
  saved := (s.history.scanl (fun w l => w.extend l.1 l.2) (World.start s.root [])).tail
  err := s.err
  coinbaseAddress := s.coinbaseAddress
  coinbaseEvmAddress := s.coinbaseEvmAddress
  simulation := s.simulation
  eventsSuppressed := s.eventsSuppressed
  isTracing := s.isTracing

/-! ### Layered searches -/

variable {α : Type} {rev : Nat}

theorem below_ctx (f : World β γ → α) (g : α → Ctx β γ → α)
    (h : ∀ w c ts, f (w.extend c ts) = g (f w) c) (s : DBImpl β γ) :
    f s.below = s.snapshottedCtxs.foldl g (f (.start s.root [])) := by
  have hfst : s.history.map Prod.fst = s.snapshottedCtxs :=
    List.map_fst_zip (le_of_eq s.aligned)
  rw [← hfst, List.foldl_map]
  exact (List.foldl_hom f fun w l => (h w l.1 l.2).symm).symm

theorem below_temp (f : World β γ → α) (g : α → TemporaryState → α)
    (h : ∀ w c ts, f (w.extend c ts) = g (f w) ts) (s : DBImpl β γ) :
    f s.below = s.tempStatesHist.foldl g (f (.start s.root [])) := by
  have hsnd : s.history.map Prod.snd = s.tempStatesHist :=
    List.map_snd_zip (le_of_eq s.aligned.symm)
  rw [← hsnd, List.foldl_map]
  exact (List.foldl_hom f fun w l => (h w l.1 l.2).symm).symm

variable (k : Keepers β γ) (s : DBImpl β γ)

theorem view_eq_abs : s.view = s.abs.cur.store := by
  have hbelow : s.below.store = Layers.view s.root (s.snapshottedCtxs.map Ctx.dirty) := by
    rw [Layers.view, List.foldl_map]
    exact below_ctx World.store (fun m c => c.dirty • m) (fun _ _ _ => rfl) s
  rw [view, List.map_append, Layers.view_append, ← hbelow]
  rfl

theorem newestFirst_getD (cur : TemporaryState) (hist : List TemporaryState)
    (f : TemporaryState → Option α) (d : α) :
    (newestFirst cur hist f).getD d =
      (f cur).getD (hist.foldl (fun d ts => (f ts).getD d) d) := by
  have hstep : ∀ (o : Option α) ts, (f ts).getD (o.getD d) = ((f ts).or o).getD d :=
    fun o ts => by cases f ts <;> rfl
  have older : hist.foldl (fun d ts => (f ts).getD d) d =
      (hist.foldl (fun o ts => (f ts).or o) none).getD d :=
    @List.foldl_hom _ _ _ (·.getD d) (fun o ts => (f ts).or o) _ hist none hstep
  rw [newestFirst_eq, ← hstep, ← older]

theorem getTransientState_abs (a : Address) (h : Hash) :
    (getTransientState s.tempStateCurrent s.tempStatesHist a h).getD emptyHash =
      s.abs.cur.transient a h := by
  rw [getTransientState, newestFirst_getD]
  exact congrArg _ (below_temp (fun w => w.transient a h)
    (fun d ts => (ts.transientStates a h).getD d) (fun _ _ _ => rfl) s).symm

theorem getTransientAccount_abs (a : Address) :
    getTransientAccount s.tempStateCurrent s.tempStatesHist a = s.abs.cur.status a := by
  rw [getTransientAccount, newestFirst_eq]
  exact congrArg _ (below_temp (fun w => w.status a)
    (fun o ts => (ts.transientAccounts.lookup a).or o) (fun _ _ _ => rfl) s).symm

theorem getRefund_abs : s.getRefund = s.abs.cur.refund := by
  let f : TemporaryState → Option UInt64 := fun ts =>
    (ts.transientModuleStates gasRefundKey).map fun bz => .ofNat (beNat bz.bytes)
  have hextend : ∀ (w : World β γ) c ts, (w.extend c ts).refund = (f ts).getD w.refund := by
    intro w c ts
    simp only [f, World.extend]
    cases ts.transientModuleStates gasRefundKey <;> rfl
  have hread : s.getRefund = (newestFirst s.tempStateCurrent s.tempStatesHist f).getD 0 := by
    have hmap : newestFirst s.tempStateCurrent s.tempStatesHist f =
        (getTransientModule s.tempStateCurrent s.tempStatesHist gasRefundKey).map
          fun bz => .ofNat (beNat bz.bytes) := List.map_findSome?.symm
    rw [hmap, getRefund]
    cases getTransientModule s.tempStateCurrent s.tempStatesHist gasRefundKey <;> rfl
  rw [hread, newestFirst_getD]
  exact (congrArg _ (below_temp World.refund _ hextend s).symm).trans (hextend _ _ _).symm

theorem foldl_or_eq_any (p : α → Bool) (xs : List α) :
    xs.foldl (fun b x => p x || b) false = xs.any p := by
  have h : ∀ b, xs.foldl (fun b x => p x || b) b = (b || xs.any p) := by
    induction xs with
    | nil => simp
    | cons x xs ih =>
      intro b
      rw [List.foldl_cons, ih, List.any_cons, Bool.or_comm (p x) b, Bool.or_assoc]
  simpa using h false

theorem addressInAccessList_abs (a : Address) :
    addressInAccessList s.tempStateCurrent s.tempStatesHist a = s.abs.cur.accessAddress a := by
  rw [addressInAccessList, ← foldl_or_eq_any]
  exact congrArg _ (below_temp (fun w => w.accessAddress a)
    (fun b ts => ts.transientAccessLists.hasAddress a || b) (fun _ _ _ => rfl) s).symm

theorem slotInAccessList_abs (a : Address) (h : Hash) :
    slotInAccessList s.tempStateCurrent s.tempStatesHist a h =
      .ok (s.abs.cur.accessAddress a, s.abs.cur.accessSlot a h) := by
  rw [slotInAccessList_eq, addressInAccessList_abs, ← foldl_or_eq_any]
  exact congrArg (fun b => Except.ok (_, _ || b)) (below_temp (fun w => w.accessSlot a h)
    (fun b ts => ts.transientAccessLists.hasSlot a h || b) (fun _ _ _ => rfl) s).symm

theorem getAllLogs_abs : getAllLogs s.tempStateCurrent s.tempStatesHist = s.abs.cur.logs := by
  have hflat : ∀ (hist : List TemporaryState) (l : List Log),
      hist.foldl (fun l ts => l ++ ts.logs) l = l ++ hist.flatMap (·.logs) := by
    intro hist
    induction hist with
    | nil => simp
    | cons ts hist ih =>
      intro l
      rw [List.foldl_cons, ih, List.flatMap_cons, List.append_assoc]
  have hbelow := below_temp World.logs (fun l ts => l ++ ts.logs) (fun _ _ _ => rfl) s
  rw [hflat] at hbelow
  exact congrArg (· ++ s.tempStateCurrent.logs) hbelow.symm

theorem totalSurplus_abs : s.totalSurplus = s.abs.cur.surplus := by
  have hbelow := below_temp World.surplus (fun z ts => z + ts.surplus) (fun _ _ _ => rfl) s
  have hsum : (s.tempStatesHist.map TemporaryState.surplus).sum = s.below.surplus := by
    rw [hbelow, List.sum_eq_foldl, List.foldl_map]
    rfl
  exact congrArg (· + s.tempStateCurrent.surplus) hsum

theorem getTabiAddress_abs : s.getTabiAddress = s.abs.getTabiAddress := by
  funext a
  rw [getTabiAddress, view_eq_abs]
  rfl

theorem getBalance_abs : s.getBalance k = s.abs.getBalance k := by
  funext a
  rw [getBalance, view_eq_abs, getTabiAddress_abs]
  rfl

theorem created_abs : s.created = s.abs.created := by
  funext a
  rw [created, getTransientAccount_abs]
  rfl

theorem hasSelfDestructed_abs : s.hasSelfDestructed = s.abs.hasSelfDestructed := by
  funext a
  rw [hasSelfDestructed, getTransientAccount_abs]
  rfl

theorem observe_abs : s.observe k = s.abs.observe k := by
  have haddr : addressInAccessList s.tempStateCurrent s.tempStatesHist =
      s.abs.cur.accessAddress := funext (addressInAccessList_abs s)
  have hslot : slotInAccessList s.tempStateCurrent s.tempStatesHist =
      fun a h => .ok (s.abs.cur.accessAddress a, s.abs.cur.accessSlot a h) :=
    funext fun a => funext (slotInAccessList_abs s a)
  have hexist : s.exist k = (s.abs.observe k).exist := by
    funext a
    rw [exist, view_eq_abs, getBalance_abs, hasSelfDestructed_abs]
    rfl
  have hempty : s.empty k = (s.abs.observe k).empty := by
    funext a
    rw [empty, view_eq_abs, getBalance_abs]
    rfl
  rw [observe, view_eq_abs, getBalance_abs, getRefund_abs, haddr, hslot, getAllLogs_abs,
    created_abs, hasSelfDestructed_abs, hexist, hempty, totalSurplus_abs]
  simp only [getTransientState_abs]
  rfl

/-! ### Changes of the newest layer -/

theorem abs_commit (e : Effect β γ) : (s.commit e).abs = s.abs.commit e := by
  simp only [abs, commit, Flat.commit, World.extend, mul_smul, List.append_assoc]
  rfl

theorem abs_commitBank (r : Patch β γ × List Event) :
    (s.commitBank r).abs = s.abs.commitBank r := abs_commit s _

theorem abs_markAccount (acc : Address) (status : AccountStatus) :
    (s.markAccount acc status).abs = s.abs.markAccount acc status := by
  simp only [abs, markAccount, Flat.markAccount, World.extend, below, history, Flat.mk.injEq,
    World.mk.injEq, true_and, and_true]
  funext a
  by_cases e : a = acc
  · subst e; simp
  · simp [e]

theorem abs_setTransientState (addr : Address) (key val : Hash) :
    (s.setTransientState addr key val).abs = s.abs.setTransientState addr key val := by
  simp only [abs, setTransientState, Flat.setTransientState, World.extend, below, history,
    Flat.mk.injEq, World.mk.injEq, true_and, and_true]
  funext a h
  by_cases e : a = addr ∧ h = key <;> simp [e]

theorem abs_setRefund (gas : UInt64) : (s.setRefund gas).abs = s.abs.setRefund gas := by
  have hgas : UInt64.ofNat (beNat (beBytes 8 gas.toNat)) = gas := by
    have hlt : gas.toNat < 256 ^ 8 := gas.toNat_lt
    rw [beNat_beBytes, Nat.mod_eq_of_lt hlt, UInt64.ofNat_toNat]
  simp only [abs, setRefund, Flat.setRefund, World.extend, below, history, if_true, hgas]

theorem abs_addAddressToAccessList (addr : Address) :
    (s.addAddressToAccessList addr).abs = s.abs.addAddressToAccessList addr := by
  simp only [abs, addAddressToAccessList, Flat.addAddressToAccessList, World.extend, below,
    history, AccessList.hasAddress_addAddress, AccessList.hasSlot_addAddress, Bool.or_assoc]

theorem abs_addSlotToAccessList (addr : Address) (slot : Hash) :
    (s.addSlotToAccessList addr slot).abs = s.abs.addSlotToAccessList addr slot := by
  simp only [abs, addSlotToAccessList, Flat.addSlotToAccessList, World.extend, below, history,
    AccessList.hasAddress_addSlot, AccessList.hasSlot_addSlot, Bool.or_assoc]

theorem abs_addLog (l : Log) : (s.addLog l).abs = s.abs.addLog l := by
  have hlen := congrArg List.length (getAllLogs_abs s)
  simp only [abs, addLog, Flat.addLog, World.extend, below, history] at hlen ⊢
  rw [hlen, List.append_assoc]

theorem abs_setSurplus (d : ℤ) :
    (s.setSurplus (s.tempStateCurrent.surplus + d)).abs = s.abs.bookSurplus d := by
  simp only [abs, setSurplus, Flat.bookSurplus, World.extend, below, history, Int.add_assoc]

theorem abs_suppressEvents (b : Bool) : (s.suppressEvents b).abs = s.abs.suppressEvents b := rfl

/-! ### Snapshots -/

theorem history_snapshot : s.snapshot.1.history = s.history ++ [(s.ctx, s.tempStateCurrent)] :=
  List.zip_append s.aligned

theorem abs_cur_snapshot : s.snapshot.1.abs.cur = s.snapshot.1.below := World.extend_new _

theorem abs_snapshot : s.snapshot.1.abs = s.abs.snapshot := by
  have hcur : s.snapshot.1.abs.cur = s.abs.cur := by
    rw [abs_cur_snapshot, below, history_snapshot, World.stack, List.foldl_append]
    rfl
  have hsaved : s.snapshot.1.abs.saved = s.abs.saved ++ [s.abs.cur] := by
    show List.tail (List.scanl _ _ s.snapshot.1.history) = _
    rw [history_snapshot, List.scanl_append, List.tail_append_of_ne_nil (by simp)]
    rfl
  show Flat.mk _ _ _ _ _ _ _ _ = Flat.mk _ _ _ _ _ _ _ _
  congr 1

theorem getElem?_saved (rev : Nat) :
    s.abs.saved[rev]? =
      if rev < s.snapshottedCtxs.length then
        some ((World.start s.root []).stack (s.history.take (rev + 1)))
      else none := by
  have hlen : s.history.length = s.snapshottedCtxs.length := by
    simp [history, s.aligned]
  show (List.tail (List.scanl _ _ s.history))[rev]? = _
  rw [List.getElem?_tail, List.getElem?_scanl, hlen]
  rfl

def truncate (rev : Nat) (ctx : Ctx β γ) (ts : TemporaryState) : DBImpl β γ :=
  { s with
    ctx := ctx
    snapshottedCtxs := s.snapshottedCtxs.take rev
    tempStateCurrent := ts
    tempStatesHist := s.tempStatesHist.take rev
    aligned := s.aligned_take rev }

theorem revertToSnapshot_eq (hrev : rev < s.snapshottedCtxs.length) :
    s.revertToSnapshot rev = .ok (s.truncate rev (s.snapshottedCtxs[rev])
      (s.tempStatesHist.get ⟨rev, s.aligned ▸ hrev⟩)).snapshot.1 := by
  have hrev' : rev < s.tempStatesHist.length := s.aligned ▸ hrev
  rw [revertToSnapshot, List.getElem?_eq_getElem hrev, List.getElem?_eq_getElem hrev']
  rfl

theorem revertToSnapshot_error (hrev : ¬ rev < s.snapshottedCtxs.length) :
    s.revertToSnapshot rev = .error .indexOutOfRange := by
  rw [revertToSnapshot, List.getElem?_eq_none (by omega)]

theorem history_truncate (hrev : rev < s.snapshottedCtxs.length) :
    (s.truncate rev (s.snapshottedCtxs[rev])
      (s.tempStatesHist.get ⟨rev, s.aligned ▸ hrev⟩)).snapshot.1.history =
        s.history.take (rev + 1) := by
  have hrev' : rev < s.tempStatesHist.length := s.aligned ▸ hrev
  have hlen : rev < s.history.length := by simp [history, hrev, hrev']
  rw [history_snapshot, List.take_add_one, List.getElem?_eq_getElem hlen]
  simp [history, truncate, List.zip, List.take_zipWith]

theorem simulates_revertToSnapshot (E : Panic → Prop) (rev : Nat) :
    Simulates E (abs (β := β) (γ := γ)) (·.revertToSnapshot rev) (·.revertToSnapshot rev) := by
  intro s
  left
  dsimp only
  rw [Flat.revertToSnapshot, getElem?_saved]
  by_cases hrev : rev < s.snapshottedCtxs.length
  · rw [if_pos hrev, revertToSnapshot_eq s hrev]
    have hhist := history_truncate s hrev
    show Except.ok (Flat.mk _ _ _ _ _ _ _ _) = Except.ok (Flat.mk _ _ _ _ _ _ _ _)
    congr 2
    · refine (abs_cur_snapshot _).trans ?_
      rw [below, hhist]
      rfl
    · show List.tail (List.scanl _ _ _) = List.take (rev + 1) (List.tail (List.scanl _ _ _))
      rw [hhist, ← List.drop_one, ← List.drop_one, List.take_drop, ← List.take_scanl,
        Nat.add_comm 1]
      rfl
  · rw [if_neg hrev, revertToSnapshot_error s hrev]
    rfl

/-! ### Operations -/

/-- The panic the layered database has of its own: the surplus of a layer is an `sdk.Int`. -/
def Overflow (p : Panic) : Prop := p = .integerOverflow

theorem ofBig_cases (z : ℤ) :
    SdkInt.ofBig z = .ok z ∨ ∃ p, Overflow p ∧ SdkInt.ofBig z = .error p := by
  unfold SdkInt.ofBig
  split
  · exact .inl rfl
  · exact .inr ⟨_, rfl, rfl⟩

def Books (book : ℤ → ℤ → Outcome ℤ) (d : ℤ → ℤ) : Prop :=
  ∀ z amt, book z amt = SdkInt.ofBig (z + d amt)

theorem simulates_moveBalance (coins wei : BankCall β γ) {book : ℤ → ℤ → Outcome ℤ} {d : ℤ → ℤ}
    (hbook : Books book d) (a : Address) (amt : ℤ) :
    Simulates Overflow abs (·.moveBalance coins wei book a amt)
      (·.moveBalance coins wei (d amt) a amt) := by
  refine .read (fun s => rfl) fun ⟨atabi, weiAmt⟩ s => ?_
  dsimp only
  rw [view_eq_abs, getTabiAddress_abs]
  cases coins s.abs.cur.store (s.abs.getTabiAddress a) atabi with
  | error e => exact .inl rfl
  | ok r =>
    dsimp only
    rw [view_eq_abs, abs_commitBank]
    cases wei (s.abs.commitBank r).cur.store (s.abs.getTabiAddress a) weiAmt with
    | error e =>
      rw [← abs_commitBank]
      exact .inl rfl
    | ok r' =>
      dsimp only
      rcases ofBig_cases amt with h | ⟨p, hp, h⟩
      · rw [h, Outcome.ok_bind, hbook]
        generalize hs : (s.commitBank r).commitBank r' = s'
        rcases ofBig_cases (s'.tempStateCurrent.surplus + d amt) with h | ⟨p, hp, h⟩
        · left
          rw [h, Outcome.ok_bind, ← abs_commitBank, ← abs_commitBank, hs]
          exact congrArg Except.ok (abs_setSurplus s' (d amt))
        · right
          exact ⟨p, hp, by rw [h]; rfl⟩
      · right
        exact ⟨p, hp, by rw [h]; rfl⟩

theorem simulates_debit (a : Address) (amt : ℤ) :
    Simulates Overflow abs (·.debit k a amt) (·.debit k a amt) :=
  simulates_moveBalance _ _ (d := id) (fun _ _ => rfl) a amt

theorem simulates_credit (a : Address) (amt : ℤ) :
    Simulates Overflow abs (·.credit k a amt) (·.credit k a amt) :=
  simulates_moveBalance _ _ (d := fun amt => -amt) (fun _ _ => rfl) a amt

theorem simulates_subBalance (a : Address) (amt : ℤ) :
    Simulates Overflow abs (·.subBalance k a amt) (·.subBalance k a amt) :=
  .ite (fun _ => Iff.rfl) (.total fun _ => rfl)
    (.ite (fun _ => Iff.rfl) (simulates_credit k a (-amt)) (simulates_debit k a amt))

theorem simulates_addBalance (a : Address) (amt : ℤ) :
    Simulates Overflow abs (·.addBalance k a amt) (·.addBalance k a amt) :=
  .ite (fun _ => Iff.rfl) (.total fun _ => rfl)
    (.ite (fun _ => Iff.rfl) (simulates_debit k a (-amt)) (simulates_credit k a amt))

theorem simulates_transferWithoutEvents (sender recipient : Address) (amount : ℤ) :
    Simulates Overflow abs (·.transferWithoutEvents k sender recipient amount)
      (·.transferWithoutEvents k sender recipient amount) :=
  .bind (.comp (simulates_subBalance k sender amount) fun s => abs_suppressEvents s true)
    (.bind (simulates_addBalance k recipient amount) (.total fun s => abs_suppressEvents s false))

theorem simulates_send (src dst : AccAddress) (amt : ℤ) :
    Simulates Overflow abs (·.send k src dst amt) (·.send k src dst amt) := by
  refine .read (fun s => rfl) fun ⟨atabi, wei⟩ s => .inl ?_
  dsimp only
  rw [view_eq_abs]
  cases k.bank.sendCoinsAndWei s.abs.cur.store src dst atabi wei with
  | error e => rfl
  | ok r => exact congrArg Except.ok (abs_commit s _)

theorem simulates_panicOnErr :
    Simulates Overflow (abs (β := β) (γ := γ)) (·.panicOnErr) (·.panicOnErr) := by
  intro s
  left
  show (s.panicOnErr).map abs = Flat.panicOnErr s.abs
  rw [panicOnErr, Flat.panicOnErr]
  have herr : s.abs.err = s.err := rfl
  rw [herr]
  cases s.err <;> rfl

theorem simulates_mintFor (amt : ℤ) :
    Simulates Overflow abs (·.mintFor k amt) (·.mintFor k amt) := by
  refine .read (fun s => rfl) fun ⟨atabi, _⟩ => .read (fun s => rfl) fun coin => ?_
  refine .ite (fun _ => Iff.rfl) (fun s => .inl rfl) fun s => .inl ?_
  rw [view_eq_abs]
  cases k.bank.mintCoins s.abs.cur.store coin with
  | error e => rfl
  | ok r => exact congrArg Except.ok (abs_commit s _)

theorem simulates_setBalance (a : Address) (amt : ℤ) :
    Simulates Overflow abs (·.setBalance k a amt) (·.setBalance k a amt) := by
  refine .ite (fun _ => Iff.rfl) (fun s => .inl rfl) fun s => ?_
  dsimp only
  rw [getBalance_abs, getTabiAddress_abs]
  generalize s.abs.getTabiAddress a = tabiAddr
  cases s.abs.getBalance k a with
  | error p => exact .inl rfl
  | ok balance =>
    exact Simulates.bind (simulates_send k tabiAddr _ balance) (.bind simulates_panicOnErr
      (.bind (simulates_mintFor k amt) (.bind (simulates_send k _ tabiAddr amt)
        simulates_panicOnErr))) s

theorem abs_createAccount (acc : Address) :
    (s.createAccount acc).abs = s.abs.createAccount acc := by
  rw [createAccount, abs_markAccount, Flat.createAccount]
  congr 1
  show abs (if s.isTracing then _ else _) = if s.isTracing then _ else _
  cases s.isTracing with
  | true => rfl
  | false =>
    rw [view_eq_abs]
    exact abs_commit s _

theorem abs_setStorage (addr : Address) (states : List (Hash × Hash)) :
    (s.setStorage addr states).abs = s.abs.setStorage addr states := by
  rw [setStorage, Flat.setStorage, view_eq_abs, ← abs_commit]
  exact foldl_abs abs (g := fun t kv => t.commit (setState addr kv.1 kv.2))
    (fun s kv => abs_commit s (setState addr kv.1 kv.2)) states _

theorem abs_dissociate (acc : Address) : (s.dissociate acc).abs = s.abs.dissociate acc := by
  rw [dissociate, Flat.dissociate, view_eq_abs]
  cases StateDB.getTabiAddress s.abs.cur.store acc with
  | none => rfl
  | some tabiAddr => exact abs_commit s _

theorem simulates_selfDestruct (acc : Address) :
    Simulates Overflow abs (·.selfDestruct k acc) (·.selfDestruct k acc) := by
  have drained : Simulates Overflow abs
      (fun s : DBImpl β γ => s.getBalance k acc >>= fun balance =>
        s.subBalance k acc balance >>= fun s => .ok (s.markAccount acc .deleted))
      (fun t : Flat β γ => t.getBalance k acc >>= fun balance =>
        t.subBalance k acc balance >>= fun t => .ok (t.markAccount acc .deleted)) :=
    .read (fun s => congrFun (getBalance_abs k s) acc) fun balance =>
      .bind (simulates_subBalance k acc balance) (.total fun s => abs_markAccount s acc .deleted)
  exact drained.comp fun s => abs_dissociate s acc

theorem simulates_selfdestruct6780 (acc : Address) :
    Simulates Overflow abs (·.selfdestruct6780 k acc) (·.selfdestruct6780 k acc) :=
  .ite (fun s => by rw [created_abs]) (simulates_selfDestruct k acc) (.total fun _ => rfl)

theorem abs_addPrecompile (addr : Address) :
    (s.addPrecompile addr).abs = s.abs.addPrecompile addr := by
  rw [addPrecompile, apply_ite abs, abs_addAddressToAccessList]
  rfl

theorem abs_addAccessTuple (el : Address × List Hash) :
    (s.addAccessTuple el).abs = s.abs.addAccessTuple el := by
  rw [addAccessTuple, Flat.addAccessTuple, ← abs_addAddressToAccessList]
  exact foldl_abs abs (g := fun t key => t.addSlotToAccessList el.1 key)
    (fun s key => abs_addSlotToAccessList s el.1 key) el.2 _

theorem abs_prepare (sender coinbase : Address) (dest : Option Address) (precompiles : List Address)
    (txAccesses : List (Address × List Hash)) :
    (s.prepare sender coinbase dest precompiles txAccesses).abs =
      s.abs.prepare sender coinbase dest precompiles txAccesses := by
  unfold prepare Flat.prepare
  dsimp only
  rw [abs_addAddressToAccessList, foldl_abs abs (g := Flat.addAccessTuple) abs_addAccessTuple,
    foldl_abs abs (g := Flat.addPrecompile) abs_addPrecompile]
  cases dest with
  | none => rw [abs_addAddressToAccessList, abs_snapshot]
  | some dest => rw [abs_addAddressToAccessList, abs_addAddressToAccessList, abs_snapshot]

theorem simulates_subRefund (gas : UInt64) :
    Simulates Overflow (abs (β := β) (γ := γ)) (·.subRefund gas) (·.subRefund gas) := by
  intro s
  left
  dsimp only
  rw [subRefund, Flat.subRefund, getRefund_abs]
  split
  · rfl
  · exact congrArg Except.ok (abs_setRefund s _)

theorem simulates_addSurplus (surplus : Option ℤ) :
    Simulates Overflow (abs (β := β) (γ := γ)) (·.addSurplus surplus)
      (fun t => .ok (t.bookSurplus (surplus.getD 0))) := by
  intro s
  have hzero : s.abs.bookSurplus 0 = s.abs := by simp [Flat.bookSurplus]
  cases surplus with
  | none => exact .inl (congrArg Except.ok hzero.symm)
  | some z =>
    by_cases e : z = 0
    · subst e
      exact .inl (congrArg Except.ok hzero.symm)
    · simp only [addSurplus, if_neg e, SdkInt.add, Option.getD_some]
      rcases ofBig_cases (s.tempStateCurrent.surplus + z) with h | ⟨p, hp, h⟩
      · rw [h]
        exact .inl (congrArg Except.ok (abs_setSurplus s z))
      · rw [h]
        exact .inr ⟨p, hp, rfl⟩

theorem step_simulates (op : Op β γ) : Simulates Overflow abs (step k op) (Flat.step k op) := by
  cases op with
  | subBalance a amt => exact simulates_subBalance k a amt
  | addBalance a amt => exact simulates_addBalance k a amt
  | transferWithoutEvents a b amt => exact simulates_transferWithoutEvents k a b amt
  | setBalance a amt => exact simulates_setBalance k a amt
  | createAccount a => exact .total fun s => abs_createAccount s a
  | selfDestruct a => exact simulates_selfDestruct k a
  | selfdestruct6780 a => exact simulates_selfdestruct6780 k a
  | setState a key val => exact .total fun s => abs_commit s _
  | setStorage a states => exact .total fun s => abs_setStorage s a states
  | setCode a code =>
    refine .total fun s => ?_
    rw [view_eq_abs]
    exact abs_commit s _
  | setNonce a nonce => exact .total fun s => abs_commit s _
  | setTransientState a key val => exact .total fun s => abs_setTransientState s a key val
  | addRefund gas =>
    refine .total fun s => ?_
    rw [addRefund, getRefund_abs]
    exact abs_setRefund s _
  | subRefund gas => exact simulates_subRefund gas
  | addAddressToAccessList a => exact .total fun s => abs_addAddressToAccessList s a
  | addSlotToAccessList a slot => exact .total fun s => abs_addSlotToAccessList s a slot
  | prepare a b c d e => exact .total fun s => abs_prepare s a b c d e
  | addLog l => exact .total fun s => abs_addLog s l
  | addSurplus z => exact simulates_addSurplus z
  | native call =>
    refine .total fun s => ?_
    rw [view_eq_abs]
    exact abs_commit s _
  | snapshot => exact .total abs_snapshot
  | revertToSnapshot rev => exact simulates_revertToSnapshot Overflow rev

theorem run_simulates (ops : List (Op β γ)) : Simulates Overflow abs (run k ops) (Flat.run k ops) :=
  .foldlM (step_simulates k) ops

theorem abs_newDBImpl (root : Stores β γ) (ctx : Ctx β γ) (txIndex : UInt64)
    (isTracing simulation : Bool) :
    (newDBImpl k root ctx txIndex isTracing simulation).abs =
      Flat.new k root ctx txIndex isTracing simulation := by
  rw [newDBImpl, abs_snapshot]
  rfl

end DBImpl

end Tabi.StateDB
