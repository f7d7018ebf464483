import Tabi.Support.Outcome
import Tabi.Support.SortedStore

/-!
# Support — Versioned

Entries kept under a name in several versions: the key is the name followed by the version, two
bytes big-endian, so that a downward scan of the keys that extend the name meets the newest version
first (`newest`).
-/

namespace Support.Versioned

variable {β : Type}

def versionKey (name : Bytes) (v : UInt16) : Bytes := name ++ beBytes 2 v.toNat

/-- The number in the first two bytes; a shorter string panics. -/
def readUint16 : Bytes → Outcome UInt16
  | hi :: lo :: _ => .ok (.ofNat (hi.toNat * 256 + lo.toNat))
  | _ => .error .indexOutOfRange

def newest (s : SortedStore Bytes β) (name : Bytes) : Outcome (Option (β × UInt16)) :=
  match s.last name.isPrefixOf with
  | none => .ok none
  | some (k, b) => do
    let v ← readUint16 (k.drop name.length)
    return some (b, v)

def Highest (f : UInt16 → Option β) : Option (β × UInt16) → Prop
  | none => ∀ v, f v = none
  | some (b, v) => f v = some b ∧ ∀ w, f w ≠ none → w ≤ v

variable {f : UInt16 → Option β} {name : Bytes} {s : SortedStore Bytes β}

theorem Highest.unique {r r' : Option (β × UInt16)} (h : Highest f r) (h' : Highest f r') :
    r = r' := by
  rcases r with _ | ⟨b, v⟩ <;> rcases r' with _ | ⟨b', v'⟩
  · rfl
  · have hn := h v'
    rw [h'.1] at hn
    cases hn
  · have hn := h' v
    rw [h.1] at hn
    cases hn
  · have hle : v ≤ v' := h'.2 v (by rw [h.1]; exact Option.some_ne_none b)
    have hge : v' ≤ v := h.2 v' (by rw [h'.1]; exact Option.some_ne_none b')
    obtain rfl : v = v' := UInt16.le_antisymm hle hge
    rw [Option.some.inj (h.1.symm.trans h'.1)]

noncomputable def highest (f : UInt16 → Option β) : Option (β × UInt16) :=
  open Classical in if h : ∃ r, Highest f r then h.choose else none

theorem highest_eq {r : Option (β × UInt16)} (h : Highest f r) : highest f = r := by
  have hex : ∃ r, Highest f r := ⟨r, h⟩
  rw [highest, dif_pos hex]
  exact hex.choose_spec.unique h

theorem of_highest {b : β} {v : UInt16} (h : highest f = some (b, v)) : f v = some b := by
  rw [highest] at h
  split at h
  · rename_i hex
    have hr := hex.choose_spec
    rw [h] at hr
    exact hr.1
  · cases h

theorem versionKey_drop (name : Bytes) (v : UInt16) :
    (versionKey name v).drop name.length = beBytes 2 v.toNat := List.drop_left

theorem readUint16_beBytes (v : UInt16) : readUint16 (beBytes 2 v.toNat) = .ok v := by
  have hv := v.toNat_lt
  have hhi : v.toNat / 256 < 256 := by omega
  show Except.ok (UInt16.ofNat ((UInt8.ofNat (v.toNat / 256 ^ 1)).toNat * 256 +
    (UInt8.ofNat (v.toNat / 256 ^ 0)).toNat)) = _
  rw [UInt8.toNat_ofNat', UInt8.toNat_ofNat']
  have hval : v.toNat / 256 ^ 1 % 2 ^ 8 * 256 + v.toNat / 256 ^ 0 % 2 ^ 8 = v.toNat := by omega
  rw [hval, UInt16.ofNat_toNat]

theorem isPrefixOf_versionKey (name : Bytes) (v : UInt16) :
    name.isPrefixOf (versionKey name v) = true :=
  List.isPrefixOf_iff_prefix.mpr (List.prefix_append _ _)

theorem versionKey_injective (name : Bytes) : Function.Injective (versionKey name) := by
  intro v w h
  have hbytes : beBytes 2 v.toNat = beBytes 2 w.toNat := List.append_cancel_left h
  exact UInt16.toNat_inj.mp (beBytes_injective (w := 2) v.toNat_lt w.toNat_lt hbytes)

theorem versionKey_lt {v w : UInt16} (h : v < w) : versionKey name v < versionKey name w := by
  have hlt : v.toNat < w.toNat := UInt16.lt_iff_toNat_lt.mp h
  have hv := v.toNat_lt
  have hw := w.toNat_lt
  refine List.Lex.append_left _ ?_ name
  -- the high bytes decide, unless they are equal
  rcases Nat.lt_or_ge (v.toNat / 256) (w.toNat / 256) with hhi | hhi
  · refine List.Lex.rel (UInt8.lt_iff_toNat_lt.mpr ?_)
    rw [UInt8.toNat_ofNat', UInt8.toNat_ofNat', Nat.pow_one]
    omega
  · have heq : v.toNat / 256 ^ 1 = w.toNat / 256 ^ 1 := by omega
    have hlow : List.Lex (· < ·) (beBytes 1 v.toNat) (beBytes 1 w.toNat) := by
      refine List.Lex.rel (UInt8.lt_iff_toNat_lt.mpr ?_)
      rw [UInt8.toNat_ofNat', UInt8.toNat_ofNat', Nat.pow_zero, Nat.div_one, Nat.div_one]
      omega
    rw [beBytes, heq]
    exact List.Lex.cons hlow

theorem newest_of_last {k : Bytes} {b : β} (h : s.last name.isPrefixOf = some (k, b)) :
    newest s name = readUint16 (k.drop name.length) >>= fun v => .ok (some (b, v)) := by
  rw [newest, h]
  rfl

theorem newest_of_last_none (h : s.last name.isPrefixOf = none) :
    newest s name = .ok none := by rw [newest, h]

theorem newest_congr {s' : SortedStore Bytes β}
    (h : ∀ k, name.isPrefixOf k = true → s'.get k = s.get k) : newest s' name = newest s name := by
  rw [newest, newest, SortedStore.last_congr h]

theorem newest_eq_none (h : newest s name = .ok none) (v : UInt16) :
    s.get (versionKey name v) = none := by
  by_contra hne
  obtain ⟨b, hb⟩ := Option.ne_none_iff_exists'.mp hne
  cases hlast : s.last name.isPrefixOf with
  | none =>
    have hfalse := SortedStore.last_eq_none.mp hlast _ _ hb
    rw [isPrefixOf_versionKey] at hfalse
    cases hfalse
  | some e =>
    rw [newest_of_last hlast] at h
    obtain ⟨v, _, hv⟩ := bind_eq_ok.mp h
    cases hv

def Readable (s : SortedStore Bytes β) (name : Bytes) : Prop :=
  ∀ k b, s.last name.isPrefixOf = some (k, b) → name.length + 2 ≤ k.length

def Found (s : SortedStore Bytes β) (name : Bytes) : Prop := s.last name.isPrefixOf ≠ none

theorem readUint16_cases (b : Bytes) :
    (∃ v, readUint16 b = .ok v ∧ 2 ≤ b.length) ∨ (∃ p, readUint16 b = .error p ∧ b.length < 2) := by
  match b with
  | [] => exact .inr ⟨_, rfl, by decide⟩
  | [_] => exact .inr ⟨_, rfl, by simp⟩
  | _ :: _ :: _ => exact .inl ⟨_, rfl, by simp⟩

theorem newest_cases (s : SortedStore Bytes β) (name : Bytes) :
    (∃ p, newest s name = .error p ∧ ¬ Readable s name) ∨
      (newest s name = .ok none ∧ Readable s name ∧ ¬ Found s name) ∨
      ∃ r, newest s name = .ok (some r) ∧ Readable s name ∧ Found s name := by
  unfold Readable Found
  cases hlast : s.last name.isPrefixOf with
  | none => exact .inr (.inl ⟨newest_of_last_none hlast, nofun, by simp⟩)
  | some e =>
    obtain ⟨k, b⟩ := e
    rw [newest_of_last hlast]
    have hpre : name.length ≤ k.length := by
      have hp := (SortedStore.last_eq_some.mp hlast).2.1
      exact (List.isPrefixOf_iff_prefix.mp hp).length_le
    rcases readUint16_cases (k.drop name.length) with ⟨v, hv, hlen⟩ | ⟨p, hp, hlen⟩ <;>
      rw [List.length_drop] at hlen
    · refine .inr (.inr ⟨(b, v), by rw [hv]; rfl, ?_, by simp⟩)
      rintro k' b' ⟨⟩
      omega
    · refine .inl ⟨p, by rw [hp]; rfl, fun hread => ?_⟩
      have := hread k b rfl
      omega

def Isolated (s : SortedStore Bytes β) (name : Bytes) : Prop :=
  ∀ k b, s.get k = some b → name <+: k → ∃ v, k = versionKey name v

theorem newest_of_isolated (h : Isolated s name) :
    newest s name = .ok (highest fun v => s.get (versionKey name v)) := by
  suffices hr : ∃ r, newest s name = .ok r ∧ Highest (fun v => s.get (versionKey name v)) r by
    obtain ⟨r, hnew, hr⟩ := hr
    rw [hnew, highest_eq hr]
  cases hlast : s.last name.isPrefixOf with
  | none => exact ⟨none, newest_of_last_none hlast, newest_eq_none (newest_of_last_none hlast)⟩
  | some e =>
    obtain ⟨k, b⟩ := e
    obtain ⟨hget, hp, hmax⟩ := SortedStore.last_eq_some.mp hlast
    obtain ⟨v, rfl⟩ := h k b hget (List.isPrefixOf_iff_prefix.mp hp)
    refine ⟨some (b, v), ?_, hget, fun w hw => ?_⟩
    · rw [newest_of_last hlast, versionKey_drop, readUint16_beBytes, Outcome.ok_bind]
    · obtain ⟨b', hb'⟩ := Option.ne_none_iff_exists'.mp hw
      have hle := hmax _ _ hb' (isPrefixOf_versionKey name w)
      by_contra hlt
      exact absurd hle (not_le.mpr (versionKey_lt (UInt16.not_le.mp hlt)))

end Support.Versioned
