import Tabi.Ante.Messages

/-!
# Ante — messages inside `MsgExec`

`AuthzNestedMessageDecorator` (`app/antedecorators/authz_nested_message.go`) keeps EVM messages out
of authz: it walks down every `MsgExec` of a transaction, stops at the first EVM message or error it
meets, and refuses what is nested five levels deep without looking into it.
-/

namespace Tabi.Ante.Authz

open Support

def maxNestedMsgs : Nat := 5

/-- `CheckAuthzContainsEvm`, of a `MsgExec`: what is too deep is an error. -/
def checkAuthzContainsEvm (nestedLvl : Nat) (msg : Msg) : Except String Bool :=
  search Msg.isEVM maxNestedMsgs (.error "permission denied, more nested msgs than permitted")
    nestedLvl msg

def checkMsgs : List Msg → Except String Unit
  | [] => .ok ()
  | .exec msgs :: ms =>
    match checkAuthzContainsEvm 0 (.exec msgs) with
    | .error err => .error err
    | .ok true => .error "permission denied, authz tx contains evm message"
    | .ok false => checkMsgs ms
  | _ :: ms => checkMsgs ms

/-- `AuthzNestedMessageDecorator.AnteHandle`; `next` is what the next handler answers. -/
def anteHandle {α : Type} (msgs : List Msg) (next : Except String α) : Except String α :=
  match checkMsgs msgs with
  | .error err => .error err
  | .ok () => next

/-- `m` is `d` levels below a `MsgExec` with these messages. -/
inductive Occurs (m : Msg) : Nat → List Msg → Prop where
  | here {msgs : List Msg} (h : m ∈ msgs) : Occurs m 1 msgs
  | nested {msgs inner : List Msg} {d : Nat} (h : .exec inner ∈ msgs) (hm : Occurs m d inner) :
      Occurs m (d + 1) msgs

def NoEVM (msgs : List Msg) : Prop := ∀ msg d, ¬ Occurs (.evmTransaction msg) d msgs

def Shallow (msgs : List Msg) : Prop :=
  ∀ inner d, Occurs (.exec inner) d msgs → d < maxNestedMsgs

def Unpacks (msgs : List Msg) : Prop := ∀ d, ¬ Occurs .notMsg d msgs

section Level

variable {lvl : Nat} {msgs : List Msg}

theorem getMessages_eq_ok : (∃ ms, getMessages msgs = .ok ms) ↔ .notMsg ∉ msgs := by
  induction msgs with
  | nil => exact iff_of_true ⟨[], rfl⟩ List.not_mem_nil
  | cons m ms ih =>
    have hstep : (∃ l, (getMessages ms).map (m :: ·) = .ok l) ↔ .notMsg ∉ ms := by
      rw [← ih]
      cases getMessages ms with
      | error err => exact iff_of_false (by rintro ⟨_, ⟨⟩⟩) (by rintro ⟨_, ⟨⟩⟩)
      | ok l => exact iff_of_true ⟨_, rfl⟩ ⟨_, rfl⟩
    cases m with
    | notMsg =>
      refine iff_of_false ?_ fun h => h List.mem_cons_self
      rintro ⟨l, hl⟩
      cases hl
    | evmTransaction msg => simpa [getMessages] using hstep
    | exec inner => simpa [getMessages] using hstep
    | other typeURL => simpa [getMessages] using hstep

theorem searchAll_iff {found : Msg → Bool} {maxNested : Nat} {tooDeep : Except String Bool} :
    searchAll found maxNested tooDeep lvl msgs = .ok false ↔
      ∀ m ∈ msgs, search found maxNested tooDeep (lvl + 1) m = .ok false := by
  induction msgs with
  | nil =>
    rw [searchAll]
    exact iff_of_true rfl fun m hm => absurd hm List.not_mem_nil
  | cons m ms ih =>
    rw [searchAll, List.forall_mem_cons, ← ih]
    cases search found maxNested tooDeep (lvl + 1) m with
    | error err => exact iff_of_false (by rintro ⟨⟩) (by rintro ⟨⟨⟩, -⟩)
    | ok yes =>
      cases yes with
      | true => exact iff_of_false (by rintro ⟨⟩) (by rintro ⟨⟨⟩, -⟩)
      | false => exact (and_iff_right rfl).symm

theorem check_exec_iff :
    checkAuthzContainsEvm lvl (.exec msgs) = .ok false ↔
      lvl < maxNestedMsgs ∧ .notMsg ∉ msgs ∧
        ∀ m ∈ msgs, checkAuthzContainsEvm (lvl + 1) m = .ok false := by
  unfold checkAuthzContainsEvm
  rw [search, ← getMessages_eq_ok, ← searchAll_iff]
  by_cases hdeep : maxNestedMsgs ≤ lvl
  · rw [if_pos hdeep]
    exact iff_of_false (by rintro ⟨⟩) fun h => absurd h.1 (Nat.not_lt.mpr hdeep)
  · rw [if_neg hdeep, and_iff_right (Nat.not_le.mp hdeep)]
    cases getMessages msgs with
    | error err => exact iff_of_false (by rintro ⟨⟩) (by rintro ⟨⟨_, ⟨⟩⟩, -⟩)
    | ok ms => exact (and_iff_right ⟨ms, rfl⟩).symm

end Level

section Depth

variable {lvl : Nat} {msgs : List Msg} {m : Msg} {d : Nat}

theorem check_sound (h : checkAuthzContainsEvm lvl (.exec msgs) = .ok false)
    (hm : Occurs m d msgs) :
    (∀ msg, m ≠ .evmTransaction msg) ∧ m ≠ .notMsg ∧
      ∀ inner, m = .exec inner → lvl + d < maxNestedMsgs := by
  induction hm generalizing lvl with
  | here hmem =>
    obtain ⟨-, hmsgs, hnext⟩ := check_exec_iff.mp h
    have hself := hnext m hmem
    refine ⟨?_, ?_, ?_⟩
    · rintro msg rfl
      rw [checkAuthzContainsEvm, search] at hself
      cases hself
    · rintro rfl
      exact hmsgs hmem
    · rintro inner rfl
      exact (check_exec_iff.mp hself).1
  | nested hexec _ ih =>
    obtain ⟨-, -, hnext⟩ := check_exec_iff.mp h
    obtain ⟨hevm, hmsg, hdeep⟩ := ih (hnext _ hexec)
    refine ⟨hevm, hmsg, fun inner hinner => ?_⟩
    have := hdeep inner hinner
    omega

theorem check_complete (hlvl : lvl < maxNestedMsgs) (hevm : NoEVM msgs) (hmsg : Unpacks msgs)
    (hdeep : ∀ inner d, Occurs (.exec inner) d msgs → lvl + d < maxNestedMsgs) :
    checkAuthzContainsEvm lvl (.exec msgs) = .ok false := by
  -- each level down is one nearer to the last that is permitted
  induction hn : maxNestedMsgs - lvl generalizing lvl msgs with
  | zero => omega
  | succ n ih =>
    refine check_exec_iff.mpr ⟨hlvl, fun hmem => hmsg 1 (.here hmem), fun m hmem => ?_⟩
    cases m with
    | evmTransaction msg => exact absurd (.here hmem) (hevm msg 1)
    | notMsg => exact absurd (.here hmem) (hmsg 1)
    | other typeURL =>
      rw [checkAuthzContainsEvm, search]
      rfl
    | exec inner =>
      refine ih (hdeep inner 1 (.here hmem)) (fun msg d hd => hevm msg (d + 1) (.nested hmem hd))
        (fun d hd => hmsg (d + 1) (.nested hmem hd)) (fun inner' d hd => ?_) (by omega)
      have := hdeep inner' (d + 1) (.nested hmem hd)
      omega

theorem check_iff : checkAuthzContainsEvm 0 (.exec msgs) = .ok false ↔
    NoEVM msgs ∧ Shallow msgs ∧ Unpacks msgs := by
  constructor
  · intro h
    refine ⟨fun msg d hd => (check_sound h hd).1 msg rfl, fun inner d hd => ?_,
      fun d hd => (check_sound h hd).2.1 rfl⟩
    have := (check_sound h hd).2.2 inner rfl
    omega
  · rintro ⟨hevm, hdeep, hmsg⟩
    refine check_complete (Nat.succ_pos 4) hevm hmsg fun inner d hd => ?_
    have := hdeep inner d hd
    omega

end Depth

theorem checkMsgs_iff {msgs : List Msg} : checkMsgs msgs = .ok () ↔
    ∀ inner, .exec inner ∈ msgs → checkAuthzContainsEvm 0 (.exec inner) = .ok false := by
  induction msgs with
  | nil => exact iff_of_true rfl fun inner hin => absurd hin List.not_mem_nil
  | cons m ms ih =>
    have hskip : (∀ inner, m ≠ .exec inner) → ((∀ inner, .exec inner ∈ m :: ms →
        checkAuthzContainsEvm 0 (.exec inner) = .ok false) ↔
        ∀ inner, .exec inner ∈ ms → checkAuthzContainsEvm 0 (.exec inner) = .ok false) := by
      intro hm
      refine forall_congr' fun inner => imp_congr_left ?_
      rw [List.mem_cons]
      exact or_iff_right fun h => hm inner h.symm
    cases m with
    | evmTransaction msg =>
      rw [checkMsgs, ih, hskip]
      all_goals rintro _ ⟨⟩
    | other typeURL =>
      rw [checkMsgs, ih, hskip]
      all_goals rintro _ ⟨⟩
    | notMsg =>
      rw [checkMsgs, ih, hskip]
      all_goals rintro _ ⟨⟩
    | exec inner =>
      -- one that does not say no ends the loop
      have hstop : checkAuthzContainsEvm 0 (.exec inner) ≠ .ok false → ¬ ∀ inner', .exec inner' ∈
          .exec inner :: ms → checkAuthzContainsEvm 0 (.exec inner') = .ok false :=
        fun hne hall => hne (hall inner List.mem_cons_self)
      rw [checkMsgs]
      cases h : checkAuthzContainsEvm 0 (.exec inner) with
      | error err => exact iff_of_false (by rintro ⟨⟩) (hstop (by rw [h]; rintro ⟨⟩))
      | ok found =>
        cases found with
        | true => exact iff_of_false (by rintro ⟨⟩) (hstop (by rw [h]; rintro ⟨⟩))
        | false =>
          change checkMsgs ms = .ok () ↔ _
          rw [ih]
          constructor
          · intro hall inner' hin
            rcases List.mem_cons.mp hin with he | hin
            · rw [he, h]
            · exact hall inner' hin
          · exact fun hall inner' hin => hall inner' (List.mem_cons_of_mem _ hin)

/-- **No EVM message hides in authz**: a transaction goes on to the next handler exactly if below
each of its `MsgExec`s there is no EVM message at any depth, no `MsgExec` five or more levels down,
and nothing that does not unpack. -/
theorem authz_passes_iff (msgs : List Msg) :
    (∀ next : Except String Unit, anteHandle msgs next = next) ↔
      ∀ inner, .exec inner ∈ msgs → NoEVM inner ∧ Shallow inner ∧ Unpacks inner := by
  have hpass : (∀ next : Except String Unit, anteHandle msgs next = next) ↔
      checkMsgs msgs = .ok () := by
    unfold anteHandle
    cases checkMsgs msgs with
    | error err => exact iff_of_false (fun h => by cases h (.ok ())) (by rintro ⟨⟩)
    | ok u => exact iff_of_true (fun _ => rfl) rfl
  rw [hpass, checkMsgs_iff]
  exact forall₂_congr fun inner _ => check_iff

end Tabi.Ante.Authz
