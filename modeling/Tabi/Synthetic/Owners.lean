import Tabi.Support.Tally
import Tabi.Synthetic.Total

/-!
# Synthetic — which owner event a transfer consults

A CW721 transfer names the sender, and an ERC721 log has to name the owner of before.
-/

namespace Tabi.Synthetic

open Support Registry
open StateDB (Log)

variable {β γ : Type}

/-! ### Owner events -/

structure OwnerEvent where
  contract : Bytes
  tokenId : Bytes
  owner : Bytes
  deriving DecidableEq

def OwnerEvent.key (e : OwnerEvent) : Bytes := getOwnerEventKey e.contract e.tokenId

theorem getOwnerEventKey_inj {c text text' : Bytes} :
    getOwnerEventKey c text = getOwnerEventKey c text' ↔ text = text' :=
  List.append_right_inj _

def ownerEvent? (event : Event) : Option OwnerEvent :=
  match event.attributes with
  | [contract, token, owner] => some ⟨contract.2, token.2, owner.2⟩
  | _ => none

def fileOwner (owners : Bytes → List Bytes) (e : OwnerEvent) : Bytes → List Bytes :=
  Function.update owners e.key (owners e.key ++ [e.owner])

theorem ownerEventsMap_eq_foldl (events : List Event) :
    ownerEventsMap events = (events.filterMap ownerEvent?).foldl fileOwner fun _ => [] := by
  rw [List.foldl_filterMap]
  unfold ownerEventsMap
  congr 1
  funext owners ⟨type, attrs⟩
  rcases attrs with _ | ⟨contract, _ | ⟨token, _ | ⟨owner, _ | _⟩⟩⟩ <;> rfl

theorem ownerEventsMap_eq (events : List Event) (key : Bytes) :
    ownerEventsMap events key =
      ((events.filterMap ownerEvent?).filter fun e => e.key = key).map OwnerEvent.owner := by
  have hfrom : ∀ (es : List OwnerEvent) (owners : Bytes → List Bytes),
      es.foldl fileOwner owners key =
        owners key ++ (es.filter fun e => e.key = key).map OwnerEvent.owner := by
    intro es
    induction es with
    | nil => exact fun owners => (List.append_nil _).symm
    | cons e es ih =>
      intro owners
      rw [List.foldl_cons, ih, fileOwner]
      by_cases he : e.key = key
      · simp [he]
      · simp [he, Function.update_of_ne (Ne.symm he)]
  rw [ownerEventsMap_eq_foldl]
  exact hfrom _ _

/-! ### Actions as they are written -/

structure Written where
  type : Bytes
  attributes : List (Bytes × Bytes)

def writtenFrom : List Written → List (Bytes × Bytes) → List Written
  | ws, [] => ws
  | ws, (key, value) :: attrs =>
    if key = Bytes.ascii "action" then writtenFrom (ws ++ [⟨value, []⟩]) attrs
    else
      match ws.getLast? with
      | none => writtenFrom ws attrs
      | some x =>
        writtenFrom (ws.dropLast ++ [⟨x.type, x.attributes ++ [(key, value)]⟩]) attrs

def written (event : Event) : List Written := writtenFrom [] event.attributes

namespace Written

def read (env : Env β γ) (x : Written) : Action :=
  x.attributes.foldl (fun a attr => assign env a attr.1 attr.2) { type := x.type }

def tokenIdText (x : Written) : Option Bytes :=
  (x.attributes.filter fun attr => attr.1 = Bytes.ascii "token_id").getLast?.map Prod.snd

variable {env : Env β γ}

theorem read_snoc (type : Bytes) (attrs : List (Bytes × Bytes)) (key value : Bytes) :
    read env ⟨type, attrs ++ [(key, value)]⟩ = assign env (read env ⟨type, attrs⟩) key value :=
  List.foldl_append ..

theorem assign_tokenId (a : Action) (key value : Bytes) :
    (assign env a key value).tokenId =
      if key = Bytes.ascii "token_id" then env.newIntFromString value else a.tokenId := by
  simp only [assign, apply_ite Action.tokenId, ite_self]
  by_cases e : key = Bytes.ascii "token_id"
  · rw [if_pos e, e, if_neg (by decide), if_neg (by decide)]
  · rw [if_neg e, ite_self, ite_self]

theorem read_tokenId (x : Written) :
    (x.read env).tokenId = x.tokenIdText.bind env.newIntFromString := by
  obtain ⟨type, attrs⟩ := x
  induction attrs using List.reverseRecOn with
  | nil => rfl
  | append_singleton attrs attr ih =>
    rw [read_snoc, assign_tokenId, ih, tokenIdText, tokenIdText, List.filter_append]
    by_cases e : attr.1 = Bytes.ascii "token_id"
    · simp [e]
    · simp [e]

end Written

variable {env : Env β γ}

theorem actionsFrom_map (ws : List Written) (attrs : List (Bytes × Bytes)) :
    actionsFrom env (ws.map (Written.read env)) attrs =
      (writtenFrom ws attrs).map (Written.read env) := by
  induction attrs generalizing ws with
  | nil => rfl
  | cons attr attrs ih =>
    rw [actionsFrom, writtenFrom]
    split
    · rw [← ih, List.map_append]
      rfl
    · rw [List.getLast?_map]
      cases ws.getLast? with
      | none => exact ih ws
      | some x =>
        rw [← ih, List.map_append, List.map_dropLast, List.map_singleton, Written.read_snoc]
        rfl

theorem getActionsFromWasmEvent_eq (event : Event) :
    getActionsFromWasmEvent env event = (written event).map (Written.read env) :=
  actionsFrom_map [] event.attributes

/-! ### Transfers -/

structure Transfer where
  contract : Bytes
  text : Bytes
  id : ℤ

def Transfer.key (t : Transfer) : Bytes := transferKey t.contract t.id

def Written.transfer? (env : Env β γ) (contract : Bytes) (x : Written) : Option Transfer :=
  if (x.read env).isOneOf ["transfer_nft", "send_nft", "burn"] then
    x.tokenIdText.bind fun text => (env.newIntFromString text).map fun id => ⟨contract, text, id⟩
  else none

theorem Written.transfer?_eq_some {env : Env β γ} {contract : Bytes} {x : Written} {t : Transfer}
    (h : x.transfer? env contract = some t) :
    t.contract = contract ∧ env.newIntFromString t.text = some t.id := by
  unfold Written.transfer? at h
  split at h
  · obtain ⟨text, -, h⟩ := Option.bind_eq_some_iff.mp h
    obtain ⟨id, hid, rfl⟩ := Option.map_eq_some_iff.mp h
    exact ⟨rfl, hid⟩
  · cases h

def cw721Pointer (env : Env β γ) (contract : Bytes) : Option Address :=
  match getERC20CW20Pointer env.ctx env.registry contract,
    getERC721CW721Pointer env.ctx env.registry contract with
  | .ok none, .ok (some (pointerAddr, _)) => some pointerAddr
  | _, _ => none

theorem cw721Pointer_eq_some {env : Env β γ} {contract : Bytes} {pointerAddr : Address}
    (h : cw721Pointer env contract = some pointerAddr) :
    getERC20CW20Pointer env.ctx env.registry contract = .ok none ∧
      ∃ version, getERC721CW721Pointer env.ctx env.registry contract =
        .ok (some (pointerAddr, version)) := by
  unfold cw721Pointer at h
  split at h
  · rename_i version h₂₀ h₇₂₁
    cases h
    exact ⟨h₂₀, version, h₇₂₁⟩
  · cases h

def transfersOf (env : Env β γ) (event : Event) : List Transfer :=
  match getAttributeValue event env.attributeKeyContractAddr with
  | none => []
  | some contract =>
    if (cw721Pointer env contract).isSome then
      (written event).filterMap (Written.transfer? env contract)
    else []

def counts (ts : List Transfer) (key : Bytes) : Nat := ts.countP fun t => t.key = key

theorem counts_append (ts us : List Transfer) (key : Bytes) :
    counts (ts ++ us) key = counts ts key + counts us key := List.countP_append

section Action

variable {owners : Bytes → List Bytes} {p : Address} {c : Bytes} {counters : Counters} {x : Written}

theorem action_of_transfer {t : Transfer} (h : x.transfer? env c = some t) :
    translateCW721Action env owners p c counters (x.read env) =
      (some ⟨p, [erc721TransferTopic,
          transferSender env (owners t.key) (counters t.key) (x.read env).sender,
          (x.read env).recipient, bigToHash t.id], emptyHash.bytes, 0⟩,
        Function.update counters t.key (counters t.key + 1)) := by
  unfold Written.transfer? at h
  split at h
  · rename_i htype
    obtain ⟨text, htext, h⟩ := Option.bind_eq_some_iff.mp h
    obtain ⟨id, hid, rfl⟩ := Option.map_eq_some_iff.mp h
    have htoken : (x.read env).tokenId = some id := by
      rw [Written.read_tokenId, htext]
      exact hid
    rw [translateCW721Action, if_pos htype, htoken]
    rfl
  · cases h

theorem action_of_other (h : x.transfer? env c = none) :
    (translateCW721Action env owners p c counters (x.read env)).2 = counters := by
  unfold translateCW721Action
  by_cases htype : (x.read env).isOneOf ["transfer_nft", "send_nft", "burn"] = true
  · have htoken : (x.read env).tokenId = none := by
      rw [Written.transfer?, if_pos htype] at h
      rw [Written.read_tokenId]
      cases htext : x.tokenIdText with
      | none => rfl
      | some text =>
        rw [htext] at h
        exact Option.map_eq_none_iff.mp h
    rw [if_pos htype, htoken]
  · rw [if_neg htype]
    split_ifs <;> rfl

theorem action_counters (key : Bytes) :
    (translateCW721Action env owners p c counters (x.read env)).2 key =
      counters key + counts (x.transfer? env c).toList key := by
  cases h : x.transfer? env c with
  | none => rw [action_of_other h]; rfl
  | some t =>
    rw [action_of_transfer h]
    by_cases e : t.key = key
    · simp [counts, e]
    · simp [counts, e, Function.update_of_ne (Ne.symm e)]

end Action

/-! ### What has been counted -/

/-- The loop of `translateCW721Event`, over some of the actions of an event. -/
def translateActions (env : Env β γ) (owners : Bytes → List Bytes) (p : Address) (c : Bytes)
    (acc : List Log × Counters) (ws : List Written) : List Log × Counters :=
  ws.foldl (fun acc x =>
    let r := translateCW721Action env owners p c acc.2 (x.read env)
    (acc.1 ++ r.1.toList, r.2)) acc

section Counted

variable {owners : Bytes → List Bytes} {p : Address} {c : Bytes}

theorem translateCW721Event_eq (counters : Counters) (event : Event) :
    translateCW721Event env owners p c counters event =
      translateActions env owners p c ([], counters) (written event) := by
  rw [translateCW721Event, getActionsFromWasmEvent_eq, List.foldl_map]
  rfl

theorem translateActions_counters (acc : List Log × Counters) (ws : List Written) (key : Bytes) :
    (translateActions env owners p c acc ws).2 key =
      acc.2 key + counts (ws.filterMap (Written.transfer? env c)) key := by
  induction ws generalizing acc with
  | nil => rfl
  | cons x ws ih =>
    rw [translateActions, List.foldl_cons]
    refine (ih _).trans ?_
    rw [action_counters, Nat.add_assoc, ← counts_append]
    cases h : x.transfer? env c with
    | none => rw [List.filterMap_cons_none h]; rfl
    | some t => rw [List.filterMap_cons_some h]; rfl

theorem translateWasmEvent_ok {acc acc' : Translated} {event : Event}
    (h : translateWasmEvent env owners acc event = .ok acc') :
    (∀ key, acc'.counters key = acc.counters key + counts (transfersOf env event) key) ∧
      ∃ new, acc'.logs = appendLogs acc.logs new := by
  unfold translateWasmEvent at h
  unfold transfersOf
  cases hc : getAttributeValue event env.attributeKeyContractAddr with
  | none =>
    rw [hc] at h
    cases h
    exact ⟨fun _ => rfl, [], rfl⟩
  | some contract =>
    rw [hc] at h
    dsimp only at h ⊢
    obtain ⟨r₂₀, h₂₀, h⟩ := bind_eq_ok.mp h
    unfold cw721Pointer
    rw [h₂₀]
    cases r₂₀ with
    | some r =>
      cases h
      exact ⟨fun _ => rfl, _, rfl⟩
    | none =>
      dsimp only at h
      unfold translateIfCW721 at h
      obtain ⟨r₇₂₁, h₇₂₁, h⟩ := bind_eq_ok.mp h
      rw [h₇₂₁]
      cases r₇₂₁ with
      | some r =>
        cases h
        refine ⟨fun key => ?_, _, rfl⟩
        rw [translateCW721Event_eq]
        exact translateActions_counters _ _ key
      | none =>
        dsimp only at h
        unfold translateIfCW1155 at h
        obtain ⟨r₁₁₅₅, -, h⟩ := bind_eq_ok.mp h
        cases r₁₁₅₅ with
        | none =>
          cases h
          exact ⟨fun _ => rfl, [], rfl⟩
        | some r =>
          obtain ⟨new, -, h⟩ := bind_eq_ok.mp h
          cases h
          exact ⟨fun _ => rfl, new, rfl⟩

theorem translateWasmEvents_counters {acc acc' : Translated} {events : List Event}
    (h : events.foldlM (translateWasmEvent env owners) acc = .ok acc') (key : Bytes) :
    acc'.counters key = acc.counters key + counts (events.flatMap (transfersOf env)) key := by
  induction events generalizing acc with
  | nil =>
    cases h
    rfl
  | cons event events ih =>
    rw [List.foldlM_cons] at h
    obtain ⟨acc₁, h₁, h⟩ := bind_eq_ok.mp h
    rw [ih h, (translateWasmEvent_ok h₁).1, List.flatMap_cons, counts_append, Nat.add_assoc]

end Counted

/-! ### Logs -/

section Logs

variable {owners : Bytes → List Bytes}

theorem mem_appendLogs {logs : List Log} {l : Log} (h : l ∈ logs) (new : List Log) :
    l ∈ appendLogs logs new := by
  unfold appendLogs
  induction new generalizing logs with
  | nil => exact h
  | cons l' new ih => exact ih (List.mem_append_left _ h)

theorem exists_mem_appendLogs {new : List Log} {l : Log} (h : l ∈ new) (logs : List Log) :
    ∃ n, { l with index := n } ∈ appendLogs logs new := by
  induction new generalizing logs with
  | nil => cases h
  | cons l' new ih =>
    rcases List.mem_cons.mp h with rfl | h
    · exact ⟨logs.length, mem_appendLogs (List.mem_append_right _ List.mem_cons_self) new⟩
    · exact ih h _

theorem mem_logs_of_foldlM {acc acc' : Translated} {events : List Event} {l : Log}
    (h : events.foldlM (translateWasmEvent env owners) acc = .ok acc') (hl : l ∈ acc.logs) :
    l ∈ acc'.logs := by
  refine Outcome.foldlM_invariant (I := fun acc : Translated => l ∈ acc.logs)
    (fun acc₁ event acc₂ _ hI h₁ => ?_) hl h
  obtain ⟨-, new, hnew⟩ := translateWasmEvent_ok h₁
  rw [hnew]
  exact mem_appendLogs hI new

theorem mem_translateActions {p : Address} {c : Bytes} {acc : List Log × Counters} {l : Log}
    (h : l ∈ acc.1) (ws : List Written) : l ∈ (translateActions env owners p c acc ws).1 := by
  unfold translateActions
  refine List.foldlRecOn (motive := fun acc : List Log × Counters => l ∈ acc.1) ws _ h ?_
  exact fun acc' hacc' x _ => List.mem_append_left _ hacc'

end Logs

/-! ### A transfer at its place -/

def filed (env : Env β γ) (events : List Event) : Bytes → List Bytes :=
  ownerEventsMap (getEventsOfType events env.eventTypeCW721PreTransferOwner)

def ownerEvents (env : Env β γ) (events : List Event) : List OwnerEvent :=
  (getEventsOfType events env.eventTypeCW721PreTransferOwner).filterMap ownerEvent?

structure Occurrence (env : Env β γ) (events : List Event) where
  earlierEvents : List Event
  event : Event
  laterEvents : List Event
  events_eq : getEventsOfType events env.wasmModuleEventType =
    earlierEvents ++ event :: laterEvents
  acc : Translated
  acc_eq : earlierEvents.foldlM (translateWasmEvent env (filed env events)) ⟨[], fun _ => 0⟩ =
    .ok acc
  contract : Bytes
  contract_eq : getAttributeValue event env.attributeKeyContractAddr = some contract
  pointer : Address
  pointer_eq : cw721Pointer env contract = some pointer
  before : List Written
  action : Written
  after : List Written
  written_eq : written event = before ++ action :: after
  transfer : Transfer
  transfer_eq : action.transfer? env contract = some transfer

namespace Occurrence

variable {events : List Event} (o : Occurrence env events)

def counters : Counters :=
  (translateActions env (filed env events) o.pointer o.contract ([], o.acc.counters) o.before).2

def log : Option Log :=
  (translateCW721Action env (filed env events) o.pointer o.contract o.counters
    (o.action.read env)).1

def earlier : List Transfer :=
  o.earlierEvents.flatMap (transfersOf env) ++
    o.before.filterMap (Written.transfer? env o.contract)

theorem counters_eq (key : Bytes) : o.counters key = counts o.earlier key := by
  have hevents := translateWasmEvents_counters o.acc_eq key
  rw [Nat.zero_add] at hevents
  rw [counters, translateActions_counters, earlier, counts_append, ← hevents]

def sameTransfer (t : Transfer) : Bool := t.contract = o.contract ∧ t.text = o.transfer.text

def sameToken (e : OwnerEvent) : Bool := e.contract = o.contract ∧ e.tokenId = o.transfer.text

structure Owns (i : ℕ) (e : OwnerEvent) : Prop where
  position : (ownerEvents env events)[i]? = some e
  same : o.sameToken e = true
  number : ((ownerEvents env events).take i).countP o.sameToken =
    o.earlier.countP o.sameTransfer

structure Consults (i : ℕ) (e : OwnerEvent) : Prop where
  position : (ownerEvents env events)[i]? = some e
  key : e.key = o.transfer.key
  number : ((ownerEvents env events).take i).countP (fun e => e.key = o.transfer.key) =
    o.counters o.transfer.key

def Undisturbed (i : ℕ) : Prop :=
  (o.earlier.countP fun t => t.key = o.transfer.key && !o.sameTransfer t) =
    ((ownerEvents env events).take i).countP fun e => e.key = o.transfer.key && !o.sameToken e

theorem earlier_id {t : Transfer} (ht : t ∈ o.earlier) :
    env.newIntFromString t.text = some t.id := by
  have hread : ∀ {c : Bytes} {ws : List Written}, t ∈ ws.filterMap (Written.transfer? env c) →
      env.newIntFromString t.text = some t.id := by
    intro c ws ht
    obtain ⟨x, -, hx⟩ := List.mem_filterMap.mp ht
    exact (Written.transfer?_eq_some hx).2
  rcases List.mem_append.mp ht with ht | ht
  · obtain ⟨event, -, ht⟩ := List.mem_flatMap.mp ht
    unfold transfersOf at ht
    split at ht
    · cases ht
    · split at ht
      · exact hread ht
      · cases ht
  · exact hread ht

theorem key_of_sameTransfer {t : Transfer} (ht : t ∈ o.earlier) (h : o.sameTransfer t = true) :
    t.key = o.transfer.key := by
  obtain ⟨hcontract, hid⟩ := Written.transfer?_eq_some o.transfer_eq
  obtain ⟨hc, htext⟩ := of_decide_eq_true h
  have hid' := o.earlier_id ht
  rw [htext, hid] at hid'
  rw [Transfer.key, Transfer.key, hc, hcontract, ← Option.some.inj hid']

theorem consults_iff {i : ℕ} {e : OwnerEvent} (h : o.Owns i e) :
    o.Consults i e ↔
      o.transfer.text = Bytes.ascii (toString o.transfer.id) ∧ o.Undisturbed i := by
  obtain ⟨hcontract, -⟩ := Written.transfer?_eq_some o.transfer_eq
  obtain ⟨hc, htext⟩ := of_decide_eq_true h.same
  have hkey : e.key = o.transfer.key ↔
      o.transfer.text = Bytes.ascii (toString o.transfer.id) := by
    rw [OwnerEvent.key, Transfer.key, transferKey, hcontract, hc, htext, getOwnerEventKey_inj]
  -- under the key there are the events and the transfers of its own, and others
  have hevents : o.transfer.text = Bytes.ascii (toString o.transfer.id) →
      ((ownerEvents env events).take i).countP (fun e => e.key = o.transfer.key) =
        o.earlier.countP o.sameTransfer + ((ownerEvents env events).take i).countP
          fun e => e.key = o.transfer.key && !o.sameToken e := by
    intro hprinted
    rw [← h.number]
    refine countP_eq_add fun e' _ he' => decide_eq_true ?_
    obtain ⟨hc', htext'⟩ := of_decide_eq_true he'
    rw [← hkey.mpr hprinted, OwnerEvent.key, OwnerEvent.key, hc', htext', hc, htext]
  have hcounted : o.counters o.transfer.key = o.earlier.countP o.sameTransfer +
      o.earlier.countP fun t => t.key = o.transfer.key && !o.sameTransfer t := by
    rw [o.counters_eq]
    exact countP_eq_add fun t ht hsame => decide_eq_true (o.key_of_sameTransfer ht hsame)
  constructor
  · intro hconsults
    have hprinted := hkey.mp hconsults.key
    have hnumber := hconsults.number
    rw [hevents hprinted, hcounted] at hnumber
    exact ⟨hprinted, (Nat.add_left_cancel hnumber).symm⟩
  · rintro ⟨hprinted, hundisturbed⟩
    refine ⟨h.position, hkey.mpr hprinted, ?_⟩
    rw [hevents hprinted, hcounted, ← hundisturbed]

theorem exists_consults_iff {owner : Bytes} :
    (filed env events o.transfer.key)[o.counters o.transfer.key]? = some owner ↔
      ∃ i e, o.Consults i e ∧ e.owner = owner := by
  rw [filed, ownerEventsMap_eq, List.getElem?_map, Option.map_eq_some_iff]
  simp only [getElem?_filter_iff]
  constructor
  · rintro ⟨e, ⟨i, hi, hkey, hnumber⟩, rfl⟩
    exact ⟨i, e, ⟨hi, of_decide_eq_true hkey, hnumber⟩, rfl⟩
  · rintro ⟨i, e, h, rfl⟩
    exact ⟨e, ⟨i, h.position, decide_eq_true h.key, h.number⟩, rfl⟩

structure OnlyNamedBy (i : ℕ) (a : Hash) : Prop where
  sender : (o.action.read env).sender ≠ a
  others : ∀ {j e tabiAddr}, (ownerEvents env events)[j]? = some e →
    env.bech32.accAddressFromBech32 e.owner = some tabiAddr →
    addressHash (StateDB.getEVMAddressOrDefault env.view tabiAddr) = a → j = i

theorem translateWasmEvent_eq : translateWasmEvent env (filed env events) o.acc o.event =
    .ok ⟨appendLogs o.acc.logs (translateActions env (filed env events) o.pointer o.contract
        ([], o.acc.counters) (written o.event)).1,
      (translateActions env (filed env events) o.pointer o.contract
        ([], o.acc.counters) (written o.event)).2⟩ := by
  obtain ⟨h₂₀, version, h₇₂₁⟩ := cw721Pointer_eq_some o.pointer_eq
  rw [translateWasmEvent, o.contract_eq]
  dsimp only
  rw [h₂₀, Outcome.ok_bind]
  dsimp only
  rw [translateIfCW721, h₇₂₁, Outcome.ok_bind, ← translateCW721Event_eq]
  rfl

theorem log_mem {l : Log} (hl : o.log = some l) :
    l ∈ (translateActions env (filed env events) o.pointer o.contract ([], o.acc.counters)
      (written o.event)).1 := by
  rw [o.written_eq, translateActions, List.foldl_append, List.foldl_cons]
  refine mem_translateActions (List.mem_append_right _ ?_) o.after
  exact Option.mem_toList.mpr hl

theorem log_emitted {l : Log} (hl : o.log = some l) {logs : List Log}
    (h : translateEvents env events = .ok logs) : ∃ n, { l with index := n } ∈ logs := by
  obtain ⟨acc, hacc, h⟩ := bind_eq_ok.mp h
  cases h
  rw [o.events_eq, List.foldlM_append] at hacc
  obtain ⟨acc₁, hearlier, hacc⟩ := bind_eq_ok.mp hacc
  cases hearlier.symm.trans o.acc_eq
  rw [List.foldlM_cons] at hacc
  obtain ⟨acc₂, hevent, hlater⟩ := bind_eq_ok.mp hacc
  cases hevent.symm.trans o.translateWasmEvent_eq
  obtain ⟨n, hn⟩ := exists_mem_appendLogs (o.log_mem hl) o.acc.logs
  exact ⟨n, mem_logs_of_foldlM hlater hn⟩

end Occurrence

/-- **Which owner a transfer names.** The event `e` belongs to the transfer. The transfer is logged,
and the log is one of those of the transaction. -/
theorem transfer_owner_iff {events : List Event} (o : Occurrence env events) {i : ℕ}
    {e : OwnerEvent} (h : o.Owns i e) {tabiAddr : AccAddress}
    (haddr : env.bech32.accAddressFromBech32 e.owner = some tabiAddr) :
    ∃ log, o.log = some log ∧
      (∀ logs, translateEvents env events = .ok logs → ∃ n, { log with index := n } ∈ logs) ∧
      (o.Consults i e ↔
        o.transfer.text = Bytes.ascii (toString o.transfer.id) ∧ o.Undisturbed i) ∧
      (o.Consults i e →
        log.topics[1]? = some (addressHash (StateDB.getEVMAddressOrDefault env.view tabiAddr))) ∧
      (o.OnlyNamedBy i (addressHash (StateDB.getEVMAddressOrDefault env.view tabiAddr)) →
        log.topics[1]? = some (addressHash (StateDB.getEVMAddressOrDefault env.view tabiAddr)) →
        o.Consults i e) := by
  have hlog : o.log = _ := congrArg Prod.fst (action_of_transfer o.transfer_eq)
  refine ⟨_, hlog, fun logs hlogs => o.log_emitted hlog hlogs, o.consults_iff h, ?_, ?_⟩
  · intro hconsults
    show some (transferSender env _ _ _) = _
    rw [transferSender, o.exists_consults_iff.mpr ⟨i, e, hconsults, rfl⟩]
    dsimp only
    rw [haddr]
  · intro honly hnamed
    replace hnamed : transferSender env _ _ _ = _ := Option.some.inj hnamed
    unfold transferSender at hnamed
    split at hnamed
    · exact absurd hnamed honly.sender
    · rename_i owner howner
      obtain ⟨j, e', hconsults, rfl⟩ := o.exists_consults_iff.mp howner
      split at hnamed
      · exact absurd hnamed honly.sender
      · rename_i tabiAddr' haddr'
        cases honly.others hconsults.position haddr' hnamed
        cases hconsults.position.symm.trans h.position
        exact hconsults

/-! ### Two notations -/

def nftContract : Env Unit Unit :=
  { oneContract with
    registry := setPointerInfo .empty (pointerERC721CW721Key (Bytes.ascii "c"))
      (FixedBytes.zero 20).bytes 2
    newIntFromString := fun s =>
      match s with
      | [d] => oneContract.newIntFromString [d]
      | [0x30, 0x78, d] => oneContract.newIntFromString [d]
      | _ => none }

def ownedBy (tokenId owner : String) : Event where
  type := Bytes.ascii "owner"
  attributes := [(Bytes.ascii "contract", Bytes.ascii "c"),
    (Bytes.ascii "token_id", Bytes.ascii tokenId), (Bytes.ascii "owner", Bytes.ascii owner)]

def transferAction (tokenId : String) : Written where
  type := Bytes.ascii "transfer_nft"
  attributes := [(Bytes.ascii "sender", Bytes.ascii "carol"),
    (Bytes.ascii "recipient", Bytes.ascii "dave"), (Bytes.ascii "token_id", Bytes.ascii tokenId)]

def transferTwice (first second : String) : Event where
  type := Bytes.ascii "wasm"
  attributes := (Bytes.ascii "_contract_address", Bytes.ascii "c") ::
    [transferAction first, transferAction second].flatMap fun x =>
      (Bytes.ascii "action", x.type) :: x.attributes

def inOnlyEvent {events : List Event} (event : Event)
    (hevents : getEventsOfType events nftContract.wasmModuleEventType = [event])
    (hcontract : getAttributeValue event nftContract.attributeKeyContractAddr =
      some (Bytes.ascii "c"))
    (before : List Written) (action : Written) (after : List Written)
    (hwritten : written event = before ++ action :: after) (transfer : Transfer)
    (htransfer : action.transfer? nftContract (Bytes.ascii "c") = some transfer) :
    Occurrence nftContract events where
  earlierEvents := []
  event := event
  laterEvents := []
  events_eq := hevents
  acc := ⟨[], fun _ => 0⟩
  acc_eq := rfl
  contract := Bytes.ascii "c"
  contract_eq := hcontract
  pointer := .zero 20
  pointer_eq := by rfl
  before := before
  action := action
  after := after
  written_eq := hwritten
  transfer := transfer
  transfer_eq := htransfer

def secondTransfer : Occurrence nftContract
    [ownedBy "7" "alice", ownedBy "7" "bob", transferTwice "7" "7"] :=
  inOnlyEvent (transferTwice "7" "7") (by decide) (by decide) [transferAction "7"]
    (transferAction "7") [] (by rfl) ⟨Bytes.ascii "c", Bytes.ascii "7", 7⟩ (by rfl)

theorem transfer_owner_second : ∃ log, secondTransfer.log = some log ∧
    log.topics[1]? = some (addressHash (.ofBytes 20 (Bytes.ascii "bob"))) := by
  have howns : secondTransfer.Owns 1 ⟨Bytes.ascii "c", Bytes.ascii "7", Bytes.ascii "bob"⟩ :=
    ⟨by rfl, by decide, by rfl⟩
  obtain ⟨log, hlog, -, hiff, hnames, -⟩ := transfer_owner_iff secondTransfer howns
    (show nftContract.bech32.accAddressFromBech32 _ = some (Bytes.ascii "bob") from rfl)
  have hundisturbed : secondTransfer.Undisturbed 1 := by
    unfold Occurrence.Undisturbed
    rfl
  exact ⟨log, hlog, hnames (hiff.mpr ⟨by decide, hundisturbed⟩)⟩

def hexTransfer : Occurrence nftContract
    [ownedBy "0x7" "alice", ownedBy "7" "bob", transferTwice "0x7" "7"] :=
  inOnlyEvent (transferTwice "0x7" "7") (by decide) (by decide) [] (transferAction "0x7")
    [transferAction "7"] (by rfl) ⟨Bytes.ascii "c", Bytes.ascii "0x7", 7⟩ (by rfl)

def decimalTransfer : Occurrence nftContract
    [ownedBy "0x7" "alice", ownedBy "7" "bob", transferTwice "0x7" "7"] :=
  inOnlyEvent (transferTwice "0x7" "7") (by decide) (by decide) [transferAction "0x7"]
    (transferAction "7") [] (by rfl) ⟨Bytes.ascii "c", Bytes.ascii "7", 7⟩ (by rfl)

theorem hexTransfer_wrongOwner :
    hexTransfer.Owns 0 ⟨Bytes.ascii "c", Bytes.ascii "0x7", Bytes.ascii "alice"⟩ ∧
      decimalTransfer.Owns 1 ⟨Bytes.ascii "c", Bytes.ascii "7", Bytes.ascii "bob"⟩ ∧
      (hexTransfer.log.map fun log => log.topics[1]?) =
        some (some (addressHash (.ofBytes 20 (Bytes.ascii "bob")))) ∧
      (decimalTransfer.log.map fun log => log.topics[1]?) =
        some (some (addressHash (.ofBytes 20 (Bytes.ascii "carol")))) ∧
      addressHash (.ofBytes 20 (Bytes.ascii "alice")) ≠
        addressHash (.ofBytes 20 (Bytes.ascii "bob")) ∧
      addressHash (.ofBytes 20 (Bytes.ascii "bob")) ≠
        addressHash (.ofBytes 20 (Bytes.ascii "carol")) :=
  ⟨⟨by rfl, by decide, by rfl⟩, ⟨by rfl, by decide, by rfl⟩, by rfl, by rfl, by decide, by decide⟩

end Tabi.Synthetic
