import Tabi.Chain.Types
import Tabi.Support.Versioned

/-!
# Registry — pointers and pointees

A *pointer* is a contract of one virtual machine that stands for a token of the other: an ERC
contract for a native denom or a CosmWasm token, or a CosmWasm contract for an ERC token.
-/

namespace Tabi.Registry

open Support Support.Versioned

abbrev Store := SortedStore Bytes Bytes

structure Ctx where
  isTracing : Bool
  cw20Version : UInt16

structure Bech32 where
  accAddressFromBech32 : Bytes → Option AccAddress
  string : AccAddress → Bytes

def mustAccAddressFromBech32 (B : Bech32) (address : Bytes) : Outcome AccAddress :=
  match B.accAddressFromBech32 address with
  | none => .error (.raised "decoding bech32 failed")
  | some a => .ok a

inductive ERC where
  | native | cw20 | cw721 | cw1155
  deriving DecidableEq

inductive CW where
  | erc20 | erc721 | erc1155
  deriving DecidableEq

def pointerERC20NativeKey (token : Bytes) : Bytes := [0x15, 0x0] ++ token

def pointerERC20CW20Key (cw20Address : Bytes) : Bytes := [0x15, 0x1] ++ cw20Address

def pointerERC721CW721Key (cw721Address : Bytes) : Bytes := [0x15, 0x2] ++ cw721Address

def pointerERC1155CW1155Key (cw1155Address : Bytes) : Bytes := [0x15, 0x5] ++ cw1155Address

def pointerCW20ERC20Key (erc20Addr : Address) : Bytes := [0x15, 0x3] ++ erc20Addr.bytes

def pointerCW721ERC721Key (erc721Addr : Address) : Bytes := [0x15, 0x4] ++ erc721Addr.bytes

def pointerCW1155ERC1155Key (erc1155Addr : Address) : Bytes := [0x15, 0x6] ++ erc1155Addr.bytes

def pointerReverseRegistryKey (addr : Address) : Bytes := 0x17 :: addr.bytes

def ERC.key : ERC → Bytes → Bytes
  | native => pointerERC20NativeKey
  | cw20 => pointerERC20CW20Key
  | cw721 => pointerERC721CW721Key
  | cw1155 => pointerERC1155CW1155Key

def ERC.currentVersion (ctx : Ctx) : ERC → UInt16
  | native => 1
  | cw20 => ctx.cw20Version
  | cw721 => 6
  | cw1155 => 2

def CW.key : CW → Address → Bytes
  | erc20 => pointerCW20ERC20Key
  | erc721 => pointerCW721ERC721Key
  | erc1155 => pointerCW1155ERC1155Key

def CW.currentVersion : CW → UInt16
  | erc20 => 2
  | erc721 => 6
  | erc1155 => 1

/-- The point queries `GetPointerInfo` falls back to: the versions from `maxVersion` down. -/
def pointQueries (s : Store) (pref : Bytes) (maxVersion : UInt16) : Option (Bytes × UInt16) :=
  (List.range (maxVersion.toNat + 1)).reverse.findSome? fun v =>
    (s.get (versionKey pref (.ofNat v))).map (·, .ofNat v)

def getPointerInfo (ctx : Ctx) (s : Store) (pref : Bytes) (maxVersion : UInt16) :
    Outcome (Option (Bytes × UInt16)) := do
  match ← newest s pref with
  | some info => return some info
  | none => if ctx.isTracing then return pointQueries s pref maxVersion else return none

def getAnyPointerInfo (s : Store) (pref : Bytes) : Outcome (Option (Bytes × UInt16)) :=
  newest s pref

def setPointerInfo (s : Store) (pref addr : Bytes) (version : UInt16) : Store :=
  s.set (versionKey pref version) addr

def deletePointerInfo (s : Store) (pref : Bytes) (version : UInt16) : Store :=
  s.delete (versionKey pref version)

def errorPointerToPointerNotAllowed : String :=
  "cannot create a pointer to a pointer: invalid request"

def evmAddressIsPointer (s : Store) (addr : Address) : Outcome Bool :=
  (getAnyPointerInfo s (pointerReverseRegistryKey addr)).map Option.isSome

def cwAddressIsPointer (s : Store) (addr : Bytes) : Outcome Bool :=
  (getAnyPointerInfo s (pointerReverseRegistryKey (.ofBytes 20 addr))).map Option.isSome

def ERC.setPointerWithVersion (k : ERC) (s : Store) (pointee : Bytes) (addr : Address)
    (version : UInt16) : Outcome (Except String Store) := do
  if ← cwAddressIsPointer s pointee then return .error errorPointerToPointerNotAllowed
  let s := setPointerInfo s (k.key pointee) addr.bytes version
  return .ok (setPointerInfo s (pointerReverseRegistryKey addr) pointee version)

def ERC.setPointer (k : ERC) (ctx : Ctx) (s : Store) (pointee : Bytes) (addr : Address) :
    Outcome (Except String Store) :=
  k.setPointerWithVersion s pointee addr (k.currentVersion ctx)

def ERC.getPointer (k : ERC) (ctx : Ctx) (s : Store) (pointee : Bytes) :
    Outcome (Option (Address × UInt16)) := do
  let info ← getPointerInfo ctx s (k.key pointee) (k.currentVersion ctx)
  return info.map (Prod.map (.ofBytes 20) id)

def ERC.deletePointer (k : ERC) (ctx : Ctx) (s : Store) (pointee : Bytes) (version : UInt16) :
    Outcome Store := do
  match ← k.getPointer ctx s pointee with
  | none => return s
  | some (addr, _) =>
    let s := deletePointerInfo s (k.key pointee) version
    return deletePointerInfo s (pointerReverseRegistryKey addr) version

def setERC20NativePointer := ERC.native.setPointer
def setERC20NativePointerWithVersion := ERC.native.setPointerWithVersion
def getERC20NativePointer := ERC.native.getPointer
def deleteERC20NativePointer := ERC.native.deletePointer

def setERC20CW20Pointer := ERC.cw20.setPointer
def setERC20CW20PointerWithVersion := ERC.cw20.setPointerWithVersion
def getERC20CW20Pointer := ERC.cw20.getPointer
def deleteERC20CW20Pointer := ERC.cw20.deletePointer

def setERC721CW721Pointer := ERC.cw721.setPointer
def setERC721CW721PointerWithVersion := ERC.cw721.setPointerWithVersion
def getERC721CW721Pointer := ERC.cw721.getPointer
def deleteERC721CW721Pointer := ERC.cw721.deletePointer

def setERC1155CW1155Pointer := ERC.cw1155.setPointer
def setERC1155CW1155PointerWithVersion := ERC.cw1155.setPointerWithVersion
def getERC1155CW1155Pointer := ERC.cw1155.getPointer
def deleteERC1155CW1155Pointer := ERC.cw1155.deletePointer

def getAnyPointeeInfo (ctx : Ctx) (s : Store) (cwAddress : Bytes) :
    Outcome (Option (Address × UInt16)) := do
  if let some info ← getERC20CW20Pointer ctx s cwAddress then return some info
  if let some info ← getERC721CW721Pointer ctx s cwAddress then return some info
  getERC1155CW1155Pointer ctx s cwAddress

section CW

variable (B : Bech32)

def CW.setPointerWithVersion (k : CW) (s : Store) (pointee : Address) (addr : Bytes)
    (version : UInt16) : Outcome (Except String Store) := do
  if ← evmAddressIsPointer s pointee then return .error errorPointerToPointerNotAllowed
  let s := setPointerInfo s (k.key pointee) addr version
  return .ok (setPointerInfo s (pointerReverseRegistryKey (.ofBytes 20 addr)) pointee.bytes version)

def CW.setPointer (k : CW) (s : Store) (pointee : Address) (addr : Bytes) :
    Outcome (Except String Store) :=
  k.setPointerWithVersion s pointee addr k.currentVersion

def CW.getPointer (k : CW) (ctx : Ctx) (s : Store) (pointee : Address) :
    Outcome (Option (AccAddress × UInt16)) := do
  match ← getPointerInfo ctx s (k.key pointee) k.currentVersion with
  | none => return none
  | some (addr, version) => return some (← mustAccAddressFromBech32 B addr, version)

def CW.deletePointer (k : CW) (ctx : Ctx) (s : Store) (pointee : Address) (version : UInt16) :
    Outcome Store := do
  match ← k.getPointer B ctx s pointee with
  | none => return s
  | some (addr, _) =>
    let s := deletePointerInfo s (k.key pointee) version
    return deletePointerInfo s (pointerReverseRegistryKey (.ofBytes 20 (B.string addr))) version

def setCW20ERC20Pointer := CW.erc20.setPointer
def setCW20ERC20PointerWithVersion := CW.erc20.setPointerWithVersion
def getCW20ERC20Pointer := CW.erc20.getPointer B
def deleteCW20ERC20Pointer := CW.erc20.deletePointer B

def setCW721ERC721Pointer := CW.erc721.setPointer
def setCW721ERC721PointerWithVersion := CW.erc721.setPointerWithVersion
def getCW721ERC721Pointer := CW.erc721.getPointer B
def deleteCW721ERC721Pointer := CW.erc721.deletePointer B

def setCW1155ERC1155Pointer := CW.erc1155.setPointer
def setCW1155ERC1155PointerWithVersion := CW.erc1155.setPointerWithVersion
def getCW1155ERC1155Pointer := CW.erc1155.getPointer B
def deleteCW1155ERC1155Pointer := CW.erc1155.deletePointer B

end CW

def getCW20Pointee (s : Store) (erc20Address : Address) : Outcome (Option (Bytes × UInt16)) :=
  getAnyPointerInfo s (pointerReverseRegistryKey erc20Address)

def getCW721Pointee (s : Store) (erc721Address : Address) : Outcome (Option (Bytes × UInt16)) :=
  getAnyPointerInfo s (pointerReverseRegistryKey erc721Address)

def getCW1155Pointee (s : Store) (erc1155Address : Address) : Outcome (Option (Bytes × UInt16)) :=
  getAnyPointerInfo s (pointerReverseRegistryKey erc1155Address)

/-- `GetNativePointee`; `hexToAddress` is `common.HexToAddress`. -/
def getNativePointee (hexToAddress : Bytes → Address) (s : Store) (erc20Address : Bytes) :
    Outcome (Option (Bytes × UInt16)) :=
  getAnyPointerInfo s (pointerReverseRegistryKey (hexToAddress erc20Address))

def getERCPointee (s : Store) (cwAddress : Bytes) : Outcome (Option (Address × UInt16)) := do
  let info ← getAnyPointerInfo s (pointerReverseRegistryKey (.ofBytes 20 cwAddress))
  return info.map (Prod.map (.ofBytes 20) id)

def getERC20Pointee := getERCPointee
def getERC721Pointee := getERCPointee
def getERC1155Pointee := getERCPointee

theorem getPointerInfo_eq (ctx : Ctx) (s : Store) (pref : Bytes) (maxVersion : UInt16) :
    getPointerInfo ctx s pref maxVersion = newest s pref := by
  have hnone : newest s pref = .ok none → pointQueries s pref maxVersion = none := by
    intro h
    rw [pointQueries, List.findSome?_eq_none_iff]
    intro v _
    rw [newest_eq_none h, Option.map_none]
  unfold getPointerInfo
  cases h : newest s pref with
  | error p => rfl
  | ok info =>
    cases info with
    | some info => rfl
    | none =>
      rw [Outcome.ok_bind]
      cases ctx.isTracing
      · rfl
      · rw [hnone h]
        rfl

end Tabi.Registry
