import Tabi.Synthetic.Translate

/-!
# Synthetic — when the translation is total and well formed

The hook returns, and every `TransferBatch` log it emits has one amount per id, exactly when its
registry lookups are readable and its batches are balanced (`addCosmosEvents_total_iff`).
-/

namespace Tabi.Synthetic

open Support Support.Versioned Registry
open StateDB (Log)

variable {β γ : Type} {env : Env β γ}

def Balanced (abi : BatchABI) (l : Log) : Prop :=
  l.topics.head? = some erc1155TransferBatchTopic → ∃ n, abi.lengths l.data = some (n, n)

variable {abi : BatchABI} {p : Address} {c : Bytes} {a : Action} {event : Event} {acc : Translated}

theorem forall_appendLogs {logs new : List Log} :
    (∀ l ∈ appendLogs logs new, Balanced abi l) ↔
      (∀ l ∈ logs, Balanced abi l) ∧ ∀ l ∈ new, Balanced abi l := by
  unfold appendLogs
  induction new generalizing logs with
  | nil => simp
  | cons l new ih =>
    rw [List.foldl_cons, ih, List.forall_mem_append, List.forall_mem_singleton,
      List.forall_mem_cons, and_assoc]
    rfl

theorem balanced_of_topic {l : Log} {t : Hash} (h : l.topics.head? = some t)
    (ht : t ≠ erc1155TransferBatchTopic) : Balanced abi l :=
  fun hb => absurd (Option.some.inj (h.symm.trans hb)) ht

theorem erc20TransferTopic_ne : erc20TransferTopic ≠ erc1155TransferBatchTopic := by decide

theorem erc20ApprovalTopic_ne : erc20ApprovalTopic ≠ erc1155TransferBatchTopic := by decide

theorem erc721TransferTopic_ne : erc721TransferTopic ≠ erc1155TransferBatchTopic := by decide

theorem erc721ApproveAllTopic_ne : erc721ApproveAllTopic ≠ erc1155TransferBatchTopic := by decide

theorem erc1155TransferSingleTopic_ne :
    erc1155TransferSingleTopic ≠ erc1155TransferBatchTopic := by decide

theorem balanced_cw20Action {o : Option Log} (h : translateCW20Action env p c a = .ok o) :
    ∀ l ∈ o, Balanced env.abi l := by
  unfold translateCW20Action at h
  split at h
  · split at h <;> cases h
    · exact nofun
    · rintro l ⟨⟩
      exact balanced_of_topic rfl erc20TransferTopic_ne
  · split at h
    · obtain ⟨contract, _, h⟩ := bind_eq_ok.mp h
      obtain ⟨ret, _, h⟩ := bind_eq_ok.mp h
      split at h
      · cases h
        exact nofun
      · split at h <;> cases h
        · exact nofun
        · rintro l ⟨⟩
          exact balanced_of_topic rfl erc20ApprovalTopic_ne
    · cases h
      exact nofun

theorem mem_logsBeforePanic {f : Action → Outcome (Option Log)} {actions : List Action} {l : Log}
    (h : l ∈ logsBeforePanic f actions) : ∃ a ∈ actions, f a = .ok (some l) := by
  induction actions with
  | nil => cases h
  | cons a actions ih =>
    rw [logsBeforePanic] at h
    split at h
    · cases h
    · rename_i o ho
      rcases List.mem_append.mp h with h | h
      · obtain rfl := Option.mem_def.mp (Option.mem_toList.mp h)
        exact ⟨a, List.mem_cons_self, ho⟩
      · obtain ⟨a', ha', h'⟩ := ih h
        exact ⟨a', List.mem_cons_of_mem a ha', h'⟩

theorem balanced_cw20Event (event : Event) (p : Address) (c : Bytes) :
    ∀ l ∈ translateCW20Event env event p c, Balanced env.abi l := by
  intro l hl
  obtain ⟨a, _, ha⟩ := mem_logsBeforePanic hl
  exact balanced_cw20Action ha l rfl

theorem balanced_tokenLog {topic sender other : Hash} (tokenId : Option ℤ)
    (ht : topic ≠ erc1155TransferBatchTopic) :
    ∀ l ∈ tokenLog p topic sender other tokenId, Balanced abi l := by
  intro l hl
  obtain ⟨id, _, rfl⟩ := Option.map_eq_some_iff.mp hl
  exact balanced_of_topic rfl ht

theorem balanced_cw721Action (owners : Bytes → List Bytes) (p : Address) (c : Bytes)
    (counters : Counters) (a : Action) :
    ∀ l ∈ (translateCW721Action env owners p c counters a).1, Balanced env.abi l := by
  unfold translateCW721Action
  split_ifs
  · split
    · exact nofun
    · rename_i id _
      exact balanced_tokenLog (some id) erc721TransferTopic_ne
  · exact balanced_tokenLog _ erc721TransferTopic_ne
  · exact balanced_tokenLog _ erc20ApprovalTopic_ne
  · exact balanced_tokenLog _ erc20ApprovalTopic_ne
  · rintro l ⟨⟩
    exact balanced_of_topic rfl erc721ApproveAllTopic_ne
  · rintro l ⟨⟩
    exact balanced_of_topic rfl erc721ApproveAllTopic_ne
  · exact nofun

theorem balanced_cw721Event (owners : Bytes → List Bytes) (p : Address) (c : Bytes)
    (counters : Counters) (event : Event) :
    ∀ l ∈ (translateCW721Event env owners p c counters event).1, Balanced env.abi l := by
  unfold translateCW721Event
  -- the logs so far are balanced, whatever the counters are
  refine List.foldlRecOn (motive := fun acc : List Log × Counters =>
    ∀ l ∈ acc.1, Balanced env.abi l) _ _ ?_ ?_
  · intro l hl
    cases hl
  · intro acc hacc a _ l hl
    rcases List.mem_append.mp hl with hl | hl
    · exact hacc l hl
    · exact balanced_cw721Action owners p c acc.2 a l (Option.mem_toList.mp hl)

def BatchSound (abi : BatchABI) (a : Action) : Prop :=
  a.isOneOf batchTypes → a.tokenIds ≠ [] → a.amounts ≠ [] →
    none ∉ a.tokenIds ∧ none ∉ a.amounts ∧
      ∀ data, abi.pack a.tokenIds.reduceOption a.amounts.reduceOption = .ok data →
        a.tokenIds.length = a.amounts.length

theorem not_batch_of_single (h : a.isOneOf ["transfer_single", "mint_single", "burn_single"] = true)
    : ¬ a.isOneOf batchTypes = true := by
  have hdisjoint : ∀ s ∈ ["transfer_single", "mint_single", "burn_single"],
      ¬ (batchTypes.map Bytes.ascii).contains (Bytes.ascii s) = true := by decide
  obtain ⟨s, hs, e⟩ := List.mem_map.mp (List.contains_iff_mem.mp h)
  rw [Action.isOneOf, ← e]
  exact hdisjoint s hs

theorem length_reduceOption {l : List (Option ℤ)} (h : none ∉ l) :
    l.reduceOption.length = l.length := by
  rw [List.reduceOption_length_eq_iff]
  intro x hx
  cases x with
  | none => exact absurd hx h
  | some z => rfl

theorem lengths_pack_iff {ids amounts : List (Option ℤ)} {data : Bytes} (hids : none ∉ ids)
    (hamounts : none ∉ amounts) (h : abi.pack ids.reduceOption amounts.reduceOption = .ok data) :
    (∃ n, abi.lengths data = some (n, n)) ↔ ids.length = amounts.length := by
  rw [abi.lengths_pack h, length_reduceOption hids, length_reduceOption hamounts]
  constructor
  · rintro ⟨n, hn⟩
    obtain ⟨h₁, h₂⟩ := Prod.mk.inj (Option.some.inj hn)
    exact h₁.trans h₂.symm
  · intro e
    exact ⟨ids.length, by rw [← e]⟩

theorem translateBatch_iff (hbatch : a.isOneOf batchTypes = true) :
    (∃ o, translateBatch env p a = .ok o ∧ ∀ l ∈ o, Balanced env.abi l) ↔
      BatchSound env.abi a := by
  unfold translateBatch BatchABI.packPtrs
  by_cases hempty : a.tokenIds = [] ∨ a.amounts = []
  · rw [if_pos hempty]
    refine ⟨fun _ _ hids hamounts => ?_, fun _ => ⟨none, rfl, nofun⟩⟩
    rcases hempty with h | h
    · exact absurd h hids
    · exact absurd h hamounts
  rw [if_neg hempty]
  obtain ⟨hids, hamounts⟩ := not_or.mp hempty
  by_cases hnil : none ∈ a.tokenIds ∨ none ∈ a.amounts
  · rw [if_pos hnil]
    refine ⟨fun ⟨o, h, _⟩ => (nomatch h), fun h => ?_⟩
    obtain ⟨hids', hamounts', _⟩ := h hbatch hids hamounts
    exact absurd hnil (not_or.mpr ⟨hids', hamounts'⟩)
  rw [if_neg hnil, Outcome.ok_bind]
  obtain ⟨hids', hamounts'⟩ := not_or.mp hnil
  cases hpack : env.abi.pack a.tokenIds.reduceOption a.amounts.reduceOption with
  | error e =>
    refine ⟨fun _ _ _ _ => ⟨hids', hamounts', fun data h => ?_⟩, fun _ => ⟨none, rfl, nofun⟩⟩
    rw [hpack] at h
    cases h
  | ok data =>
    have hlen := lengths_pack_iff hids' hamounts' hpack
    constructor
    · rintro ⟨o, h, hbal⟩ _ _ _
      cases h
      exact ⟨hids', hamounts', fun _ _ => hlen.mp (hbal _ rfl rfl)⟩
    · intro h
      refine ⟨_, rfl, ?_⟩
      rintro l ⟨⟩ _
      exact hlen.mpr ((h hbatch hids hamounts).2.2 data hpack)

theorem cw1155Action_iff :
    (∃ o, translateCW1155Action env p a = .ok o ∧ ∀ l ∈ o, Balanced env.abi l) ↔
      BatchSound env.abi a := by
  unfold translateCW1155Action
  split
  · rename_i hsingle
    refine ⟨fun _ hb => absurd hb (not_batch_of_single hsingle), fun _ => ⟨_, rfl, ?_⟩⟩
    unfold translateSingle
    split
    · rintro l ⟨⟩
      exact balanced_of_topic rfl erc1155TransferSingleTopic_ne
    · exact nofun
  split
  · rename_i hbatch
    exact translateBatch_iff hbatch
  · rename_i hbatch
    refine ⟨fun _ hb => absurd hb hbatch, fun _ => ?_⟩
    split_ifs
    · refine ⟨_, rfl, ?_⟩
      rintro l ⟨⟩
      exact balanced_of_topic rfl erc721ApproveAllTopic_ne
    · refine ⟨_, rfl, ?_⟩
      rintro l ⟨⟩
      exact balanced_of_topic rfl erc721ApproveAllTopic_ne
    · exact ⟨none, rfl, nofun⟩

theorem cw1155Event_iff :
    (∃ logs, translateCW1155Event env event p = .ok logs ∧ ∀ l ∈ logs, Balanced env.abi l) ↔
      ∀ a ∈ getActionsFromWasmEvent env event, BatchSound env.abi a := by
  simp only [← cw1155Action_iff (p := p)]
  rw [← exists_mapM_iff]
  constructor
  · rintro ⟨logs, h, hbal⟩
    obtain ⟨os, hos, h⟩ := bind_eq_ok.mp h
    cases h
    refine ⟨os, hos, ?_⟩
    rintro o ho l rfl
    exact hbal l (List.reduceOption_mem_iff.mpr ho)
  · rintro ⟨os, hos, hbal⟩
    refine ⟨os.reduceOption, by rw [translateCW1155Event, hos]; rfl, fun l hl => ?_⟩
    exact hbal (some l) (List.reduceOption_mem_iff.mp hl) l rfl

def EventSound (env : Env β γ) (event : Event) : Prop :=
  ∀ c, getAttributeValue event env.attributeKeyContractAddr = some c →
    Readable env.registry (pointerERC20CW20Key c) ∧
      (¬ Found env.registry (pointerERC20CW20Key c) →
        Readable env.registry (pointerERC721CW721Key c) ∧
          (¬ Found env.registry (pointerERC721CW721Key c) →
            Readable env.registry (pointerERC1155CW1155Key c) ∧
              (Found env.registry (pointerERC1155CW1155Key c) →
                ∀ a ∈ getActionsFromWasmEvent env event, BatchSound env.abi a)))

theorem getPointer_cases (k : ERC) (ctx : Ctx) (s : Store) (c : Bytes) :
    (∃ p, k.getPointer ctx s c = .error p ∧ ¬ Readable s (k.key c)) ∨
      (k.getPointer ctx s c = .ok none ∧ Readable s (k.key c) ∧ ¬ Found s (k.key c)) ∨
      ∃ r, k.getPointer ctx s c = .ok (some r) ∧ Readable s (k.key c) ∧ Found s (k.key c) := by
  rw [ERC.getPointer, getPointerInfo_eq]
  rcases newest_cases s (k.key c) with ⟨p, h, hr⟩ | ⟨h, hr⟩ | ⟨r, h, hr⟩ <;> rw [h]
  · exact .inl ⟨p, rfl, hr⟩
  · exact .inr (.inl ⟨rfl, hr⟩)
  · exact .inr (.inr ⟨_, rfl, hr⟩)

theorem lookup_iff {k : ERC} {ctx : Ctx} {s : Store} {α : Type} {I : α → Prop}
    {f : Option (Address × UInt16) → Outcome α} {hit miss : Prop}
    (hhit : ∀ r, (∃ a, f (some r) = .ok a ∧ I a) ↔ hit) (hmiss :
    (∃ a, f none = .ok a ∧ I a) ↔ miss) :
    (∃ a, (k.getPointer ctx s c >>= f) = .ok a ∧ I a) ↔
      Readable s (k.key c) ∧ (Found s (k.key c) → hit) ∧ (¬ Found s (k.key c) → miss) := by
  rcases getPointer_cases k ctx s c with ⟨p, h, hr⟩ | ⟨h, hr, hf⟩ | ⟨r, h, hr, hf⟩ <;> rw [h]
  · exact ⟨fun ⟨_, h', _⟩ => (nomatch h'), fun h' => absurd h'.1 hr⟩
  · rw [Outcome.ok_bind, hmiss]
    exact ⟨fun h' => ⟨hr, fun hf' => absurd hf' hf, fun _ => h'⟩, fun h' => h'.2.2 hf⟩
  · rw [Outcome.ok_bind, hhit]
    exact ⟨fun h' => ⟨hr, fun _ => h', fun hf' => absurd hf hf'⟩, fun h' => h'.2.1 hf⟩

def AllBalanced (env : Env β γ) (acc : Translated) : Prop := ∀ l ∈ acc.logs, Balanced env.abi l

theorem allBalanced_append {new : List Log} {counters : Counters}
    (hnew : ∀ l ∈ new, Balanced env.abi l) :
    (∃ acc', (.ok ⟨appendLogs acc.logs new, counters⟩ : Outcome Translated) = .ok acc' ∧
      AllBalanced env acc') ↔ AllBalanced env acc := by
  constructor
  · rintro ⟨acc', h, hbal⟩
    cases h
    exact (forall_appendLogs.mp hbal).1
  · exact fun h => ⟨_, rfl, forall_appendLogs.mpr ⟨h, hnew⟩⟩

theorem cw1155_iff :
    (∃ acc', translateIfCW1155 env acc event c = .ok acc' ∧ AllBalanced env acc') ↔
      Readable env.registry (pointerERC1155CW1155Key c) ∧
        (Found env.registry (pointerERC1155CW1155Key c) → AllBalanced env acc ∧
          ∀ a ∈ getActionsFromWasmEvent env event, BatchSound env.abi a) ∧
        (¬ Found env.registry (pointerERC1155CW1155Key c) → AllBalanced env acc) := by
  refine lookup_iff (k := .cw1155) (fun r => ?_) ⟨?_, fun h => ⟨acc, rfl, h⟩⟩
  · rw [← cw1155Event_iff (p := r.1)]
    constructor
    · rintro ⟨acc', h, hbal⟩
      obtain ⟨new, hnew, h⟩ := bind_eq_ok.mp h
      cases h
      obtain ⟨hacc, hbal⟩ := forall_appendLogs.mp hbal
      exact ⟨hacc, new, hnew, hbal⟩
    · rintro ⟨hacc, new, hnew, hbal⟩
      refine ⟨⟨appendLogs acc.logs new, acc.counters⟩, ?_, forall_appendLogs.mpr ⟨hacc, hbal⟩⟩
      simp only [hnew, Outcome.ok_bind, Outcome.pure_eq_ok]
  · rintro ⟨acc', h, hbal⟩
    cases h
    exact hbal

theorem cw721_iff {owners : Bytes → List Bytes} :
    (∃ acc', translateIfCW721 env owners acc event c = .ok acc' ∧ AllBalanced env acc') ↔
      Readable env.registry (pointerERC721CW721Key c) ∧
        (Found env.registry (pointerERC721CW721Key c) → AllBalanced env acc) ∧
        (¬ Found env.registry (pointerERC721CW721Key c) →
          ∃ acc', translateIfCW1155 env acc event c = .ok acc' ∧ AllBalanced env acc') :=
  lookup_iff (k := .cw721)
    (fun r => allBalanced_append (balanced_cw721Event owners r.1 c acc.counters event)) Iff.rfl

theorem hitOrMiss_iff {p q read₁ found₁ read₂ found₂ read₃ found₃ : Prop} :
    (read₁ ∧ (found₁ → p) ∧ (¬ found₁ → read₂ ∧ (found₂ → p) ∧
      (¬ found₂ → read₃ ∧ (found₃ → p ∧ q) ∧ (¬ found₃ → p)))) ↔
    p ∧ read₁ ∧ (¬ found₁ → read₂ ∧ (¬ found₂ → read₃ ∧ (found₃ → q))) := by
  tauto

theorem wasmEvent_iff (owners : Bytes → List Bytes) (acc : Translated) (event : Event) :
    (∃ acc', translateWasmEvent env owners acc event = .ok acc' ∧ AllBalanced env acc') ↔
      AllBalanced env acc ∧ EventSound env event := by
  unfold translateWasmEvent EventSound
  cases hattr : getAttributeValue event env.attributeKeyContractAddr with
  | none => simp
  | some c =>
    refine (lookup_iff (k := .cw20)
      (fun r => allBalanced_append (balanced_cw20Event event r.1 c)) cw721_iff).trans ?_
    rw [cw1155_iff]
    simp only [Option.some.injEq, forall_eq']
    exact hitOrMiss_iff

theorem recordLogs_returns (env : Env β γ) {cdc : Codec}
    (hcdc : ∀ info, cdc.deferred.marshalInfo info ≠ none) (t : Transient) (tx : Tx)
    (logs : List Log) : ∃ t', recordLogs env cdc t tx logs = .ok t' := by
  have happend : ∀ d i bloom hash surplus, ∃ d',
      Settlement.appendToEvmTxDeferredInfo cdc.deferred d i bloom hash surplus = .ok d' := by
    intro d i bloom hash surplus
    unfold Settlement.appendToEvmTxDeferredInfo
    split
    · rename_i h
      exact absurd h (hcdc _)
    · exact ⟨_, rfl⟩
  exact Outcome.bind_returns (happend _ _ _ _ _) fun _ => ⟨_, rfl⟩

theorem addCosmosEvents_iff {cdc : Codec} (hcdc : ∀ info, cdc.deferred.marshalInfo info ≠ none)
    (t : Transient) (tx : Tx) (events : List Event) (logs : List Log) :
    (∃ t', addCosmosEventsToEVMReceiptIfApplicable env cdc t tx events = .ok (t', logs)) ↔
      translateEvents env events = .ok logs := by
  unfold addCosmosEventsToEVMReceiptIfApplicable
  by_cases hnone : getEventsOfType events env.wasmModuleEventType = []
  · have htr : translateEvents env events = .ok [] := by
      rw [translateEvents, hnone]
      rfl
    rw [if_pos hnone, htr]
    constructor
    · rintro ⟨t', h⟩
      cases h
      rfl
    · intro h
      cases h
      exact ⟨t, rfl⟩
  rw [if_neg hnone]
  cases translateEvents env events with
  | error p => exact ⟨fun ⟨_, h⟩ => (nomatch h), nofun⟩
  | ok new =>
    rw [Outcome.ok_bind]
    by_cases hnew : new = []
    · rw [if_pos hnew]
      constructor
      · rintro ⟨t', h⟩
        cases h
        rw [hnew]
      · intro h
        cases h
        exact ⟨t, by rw [hnew]; rfl⟩
    · obtain ⟨t₁, ht₁⟩ := recordLogs_returns env hcdc t tx new
      rw [if_neg hnew, ht₁]
      constructor
      · rintro ⟨t', h⟩
        cases h
        rfl
      · intro h
        cases h
        exact ⟨t₁, rfl⟩

/-- **The translation is total and well formed exactly when every event is sound**: the hook
returns, and each `TransferBatch` log it emits carries one amount per id. -/
theorem addCosmosEvents_total_iff (env : Env β γ) (cdc : Codec)
    (hcdc : ∀ info, cdc.deferred.marshalInfo info ≠ none) (t : Transient) (tx : Tx)
    (events : List Event) :
    (∃ t' logs, addCosmosEventsToEVMReceiptIfApplicable env cdc t tx events = .ok (t', logs) ∧
      ∀ l ∈ logs, l.topics.head? = some erc1155TransferBatchTopic →
        ∃ n, env.abi.lengths l.data = some (n, n)) ↔
      ∀ event ∈ getEventsOfType events env.wasmModuleEventType, EventSound env event := by
  have hloop := Outcome.exists_foldlM_iff (I := AllBalanced env)
    (wasmEvent_iff (ownerEventsMap (getEventsOfType events env.eventTypeCW721PreTransferOwner)))
    (getEventsOfType events env.wasmModuleEventType) ⟨[], fun _ => 0⟩
  have hstart : AllBalanced env ⟨[], fun _ => 0⟩ := nofun
  rw [and_iff_right hstart] at hloop
  rw [← hloop]
  constructor
  · rintro ⟨t', logs, h, hbal⟩
    have htr := (addCosmosEvents_iff hcdc t tx events logs).mp ⟨t', h⟩
    obtain ⟨acc, hacc, hlogs⟩ := bind_eq_ok.mp htr
    cases hlogs
    exact ⟨acc, hacc, hbal⟩
  · rintro ⟨acc, hacc, hbal⟩
    have htr : translateEvents env events = .ok acc.logs := by
      rw [translateEvents, hacc]
      rfl
    obtain ⟨t', h⟩ := (addCosmosEvents_iff hcdc t tx events acc.logs).mpr htr
    exact ⟨t', acc.logs, h, hbal⟩

def unaryABI : BatchABI where
  pack ids amounts := .ok (List.replicate ids.length 1 ++ 0 :: List.replicate amounts.length 1)
  lengths data := some ((data.takeWhile (· = 1)).length, (data.dropWhile (· = 1)).length - 1)
  lengths_pack := by
    rintro ids amounts data ⟨⟩
    rw [List.takeWhile_append_of_pos (by simp), List.dropWhile_append_of_pos (by simp)]
    simp

def oneContract : Env Unit Unit where
  view := ⟨fun _ => none, fun _ => none, fun _ => none⟩
  registry := setPointerInfo .empty (pointerERC1155CW1155Key (Bytes.ascii "c"))
    (FixedBytes.zero 20).bytes 2
  ctx := ⟨false, 2⟩
  bech32 := ⟨some, id⟩
  newIntFromString s :=
    match s with
    | [d] => if 0x30 ≤ d ∧ d ≤ 0x39 then some (d.toNat - 0x30) else none
    | _ => none
  querySmart _ _ := .ok none
  unmarshalAllowance _ := none
  abi := unaryABI
  createBloom _ := .zero 256
  wasmModuleEventType := Bytes.ascii "wasm"
  eventTypeCW721PreTransferOwner := Bytes.ascii "owner"
  attributeKeyContractAddr := Bytes.ascii "_contract_address"

def batchEvent (ids amounts : String) : Event where
  type := Bytes.ascii "wasm"
  attributes := [(Bytes.ascii "_contract_address", Bytes.ascii "c"),
    (Bytes.ascii "action", Bytes.ascii "transfer_batch"),
    (Bytes.ascii "token_ids", Bytes.ascii ids), (Bytes.ascii "amounts", Bytes.ascii amounts)]

def blankCodec : Codec := ⟨⟨fun _ => some [], fun _ => none, fun _ => none, fun _ => none⟩,
  fun _ => none, fun _ => none⟩

def blankTransient : Transient := ⟨.empty, ⟨.empty, .empty, .empty⟩⟩

def blankTx : Tx := ⟨.zero 32, none, 0, 0, 0, []⟩

theorem addCosmosEvents_total_twoTokens :
    ∃ t' logs, addCosmosEventsToEVMReceiptIfApplicable oneContract blankCodec blankTransient
        blankTx [batchEvent "1,2" "5,6"] = .ok (t', logs) ∧
      ∀ l ∈ logs, l.topics.head? = some erc1155TransferBatchTopic →
        ∃ n, unaryABI.lengths l.data = some (n, n) := by
  refine (addCosmosEvents_total_iff oneContract blankCodec nofun blankTransient blankTx _).mpr ?_
  intro event hevent
  obtain rfl : event = batchEvent "1,2" "5,6" := List.mem_singleton.mp hevent
  intro c hc
  obtain rfl : Bytes.ascii "c" = c := Option.some.inj hc
  refine ⟨nofun, fun _ => ⟨nofun, fun _ => ⟨?_, fun _ a ha => ?_⟩⟩⟩
  · intro k b hlast
    obtain ⟨rfl, rfl⟩ := Prod.mk.inj (Option.some.inj hlast)
    decide
  · obtain rfl := List.mem_singleton.mp ha
    exact fun _ _ _ => ⟨by decide, by decide, fun _ _ => rfl⟩

/-- **A batch can make the hook panic, and can come out unbalanced.**  Ids `1,x` have a part that
does not parse, and its nil is packed; ids `1,2` with the single amount `5` are packed as they
are. -/
theorem addCosmosEvents_unparsableId :
    addCosmosEventsToEVMReceiptIfApplicable oneContract blankCodec blankTransient blankTx
        [batchEvent "1,x" "5,6"] = .error .nilDereference ∧
      ∃ t' l, addCosmosEventsToEVMReceiptIfApplicable oneContract blankCodec blankTransient
          blankTx [batchEvent "1,2" "5"] = .ok (t', [l]) ∧
        l.topics.head? = some erc1155TransferBatchTopic ∧
        unaryABI.lengths l.data = some (2, 1) :=
  ⟨by rfl, _, _, rfl, rfl, rfl⟩

end Tabi.Synthetic
