import NvmeSnsd.Lib.Tlv
import NvmeSnsd.Snsd

/-! The notification record and the handlers that fill it from sub-TLVs. The
packed structures are kept as memory: the address part is a union, and the
acknowledgement copies whole structures out of it. -/
namespace NvmeSnsd.Server
open Lib

/-- `enum SNSD_DEVICE_ROLE_E` -/
def snsdClient : ℕ := 2

/-- `enum nt_msg_subtlv_type` -/
def notifySubTlv1SrcIpv4 : UInt8 := 1
def notifySubTlv2DstIpv4 : UInt8 := 2
def notifySubTlv3SrcIpv6 : UInt8 := 3
def notifySubTlv4DstIpv6 : UInt8 := 4
def notifySubTlv5Seq : UInt8 := 5
def notifySubTlv6State : UInt8 := 6
def notifySubTlv7Reason : UInt8 := 7
def notifySubTlv8Ad : UInt8 := 8

def snsdTlvTagSize : ℕ := 1
def snsdTlvLenSize : ℕ := 2
def snsdTlvFormatStruct : UInt8 := 0x20
def snsdMsgNotifyType : UInt8 := 0x1
def snsdMsgNotifyAckType : UInt8 := 0x2
def snsdMsgNotifyMask : UInt8 := 0x1f
def snsdIpv4NtTlvCompleteFlag : ℕ := 0xF3
def snsdIpv6NtTlvCompleteFlag : ℕ := 0xFC
def snsdSeqNumLen : ℕ := 4
def snsdAddtionLenMax : ℕ := 262

/-- `sizeof(tl_info)` -/
def sizeofTlInfo : ℕ := 3
def sizeofSubTlvTypeIpv4 : ℕ := sizeofTlInfo+ipv4AddrLength
def sizeofSubTlvTypeIpv6 : ℕ := sizeofTlInfo+ipv6AddrLength
def sizeofSubTlvType5 : ℕ := sizeofTlInfo+4

/-- `struct nt_msg_info`, less the fields that nothing here reads. The union
`ip_tlv` holds two `sub_tlv_type_ipv4` from its start or two
`sub_tlv_type_ipv6` from its start. -/
@[ext]
structure NtMsg where
  ver : ℕ
  map : ℕ
  family : ℕ
  ipTlv : Mem 38
  seqNumTlv : Mem 7
  stateTlv : Mem 7
  ntReasonTlv : Mem 7
  adInfoTlv : Mem 266
  deriving DecidableEq

namespace NtMsg

/-- `memset(&msg, 0, sizeof(msg)); msg.ver = ver` -/
def init (ver : ℕ) : NtMsg :=
  ⟨ver, 0, 0, Mem.zero 38, Mem.zero 7, Mem.zero 7, Mem.zero 7, Mem.zero 266⟩

/-- `ip_tlv.ipv4.dst.ip` -/
def dstIpv4 (m : NtMsg) : Bytes := m.ipTlv.read 10 4

/-- `ip_tlv.ipv6.dst.ip` -/
def dstIpv6 (m : NtMsg) : Bytes := m.ipTlv.read 22 16

/-- `ad_info_tlv.ad_info.role_type` -/
def roleType (m : NtMsg) : ℕ := leVal (m.adInfoTlv.read 3 1)

/-- `state_tlv.state` -/
def state (m : NtMsg) : ℕ := leVal (m.stateTlv.read 3 4)

end NtMsg

def snsdSaveTlInfo {n : ℕ} (type : UInt8) (len : ℕ) (m : Mem n) (tl : ℕ) : Except Fault (Mem n) :=
  m.store tl (type :: leBytes16 (htons len))

def snsdSetMsgValidBit (map : ℕ) (type : UInt8) : ℕ := map ||| u16 (1 <<< (type.toNat-1))

def snsdCheckMsgComplete (map : ℕ) : Bool :=
  map == snsdIpv4NtTlvCompleteFlag || map == snsdIpv6NtTlvCompleteFlag

/-- `ntohl` or `ntohs` of a field in place. -/
def swapInPlace {n : ℕ} (m : Mem n) (off len : ℕ) : Except Fault (Mem n) :=
  m.store off (m.read off len).reverse

/-- What the four address handlers share: the required length, the place of
the address in the union, and the family they set. -/
def snsdGetIp (addrLen tl : ℕ) (family : ℕ → ℕ) (buf : Ptr) (type : UInt8) (len : ℕ)
    (msg : NtMsg) : Except Fault NtMsg :=
  if len ≠ addrLen then .ok msg
  else do
    let ip ← snsdSaveTlInfo type len msg.ipTlv tl
    let ip ← ip.memcpy (tl+sizeofTlInfo) buf addrLen
    .ok { msg with
      ipTlv := ip
      map := snsdSetMsgValidBit msg.map type
      family := family msg.family }

def snsdGetSrcIpv4 := snsdGetIp ipv4AddrLength 0 (fun _ => AF_INET)

def snsdGetDstIpv4 := snsdGetIp ipv4AddrLength sizeofSubTlvTypeIpv4 id

def snsdGetSrcIpv6 := snsdGetIp ipv6AddrLength 0 (fun _ => AF_INET6)

def snsdGetDstIpv6 := snsdGetIp ipv6AddrLength sizeofSubTlvTypeIpv6 id

/-- The sequence number stays in network order: it is only ever sent back. -/
def snsdGetClientSeq (buf : Ptr) (type : UInt8) (len : ℕ) (msg : NtMsg) : Except Fault NtMsg :=
  if len ≠ snsdSeqNumLen then .ok msg
  else do
    let s ← snsdSaveTlInfo type len msg.seqNumTlv 0
    let s ← s.memcpy sizeofTlInfo buf len
    .ok { msg with seqNumTlv := s, map := snsdSetMsgValidBit msg.map type }

/-- `lenInfo` pairs a version with the length it requires. -/
def snsdCheckMsgLen (ver len : ℕ) (lenInfo : List (ℕ × ℕ)) : Bool :=
  lenInfo.any fun i => ver == i.1 && len == i.2

def snsdCheckStateLen (ver len : ℕ) : Bool := snsdCheckMsgLen ver len [(0, 1), (1, 4)]

def snsdCheckReasonLen (ver len : ℕ) : Bool := snsdCheckMsgLen ver len [(0, 1), (1, 4)]

/-- A value of up to four bytes is copied to the end of a cleared word, which
is then turned into host order; the header is saved last. -/
def getWord (buf : Ptr) (type : UInt8) (len : ℕ) (m : Mem 7) : Except Fault (Mem 7) := do
  let m ← m.store sizeofTlInfo (List.replicate 4 0)
  let m ← m.memcpy (sizeofTlInfo+4-len) buf len
  let m ← swapInPlace m sizeofTlInfo 4
  snsdSaveTlInfo type len m 0

def snsdGetClientState (buf : Ptr) (type : UInt8) (len : ℕ) (msg : NtMsg) : Except Fault NtMsg :=
  if !snsdCheckStateLen msg.ver len then .ok msg
  else do
    let s ← getWord buf type len msg.stateTlv
    .ok { msg with stateTlv := s, map := snsdSetMsgValidBit msg.map type }

def snsdGetNtReason (buf : Ptr) (type : UInt8) (len : ℕ) (msg : NtMsg) : Except Fault NtMsg :=
  if !snsdCheckReasonLen msg.ver len then .ok msg
  else do
    let r ← getWord buf type len msg.ntReasonTlv
    .ok { msg with ntReasonTlv := r, map := snsdSetMsgValidBit msg.map type }

/-- `proto_port` is the two bytes at offset 4 of `ad_info`. -/
def snsdGetAdInfo (buf : Ptr) (type : UInt8) (len : ℕ) (msg : NtMsg) : Except Fault NtMsg :=
  if len > snsdAddtionLenMax then .ok msg
  else do
    let a ← snsdSaveTlInfo type len msg.adInfoTlv 0
    let a ← a.memcpy sizeofTlInfo buf len
    let a ← swapInPlace a (sizeofTlInfo+4) 2
    .ok { msg with adInfoTlv := a, map := snsdSetMsgValidBit msg.map type }

def tlvFunc : List (UInt8 × (Ptr → UInt8 → ℕ → NtMsg → Except Fault NtMsg)) :=
  [(notifySubTlv1SrcIpv4, snsdGetSrcIpv4),
   (notifySubTlv2DstIpv4, snsdGetDstIpv4),
   (notifySubTlv3SrcIpv6, snsdGetSrcIpv6),
   (notifySubTlv4DstIpv6, snsdGetDstIpv6),
   (notifySubTlv5Seq, snsdGetClientSeq),
   (notifySubTlv6State, snsdGetClientState),
   (notifySubTlv7Reason, snsdGetNtReason),
   (notifySubTlv8Ad, snsdGetAdInfo)]

/-- The first handler of the type, if any. -/
def snsdGetValue (buf : Ptr) (type : UInt8) (len : ℕ) (msg : NtMsg) : Except Fault NtMsg :=
  match tlvFunc.find? (fun f => type == f.1) with
  | some f => f.2 buf type len msg
  | none => .ok msg

/-! What one sub-TLV means for the record, without buffers or offsets. -/

/-- A state or a reason is one byte in version 0 and four in version 1. -/
def wordLenOk (ver len : ℕ) : Bool := (ver == 0 && len == 1) || (ver == 1 && len == 4)

/-- The lengths that the version lets a sub-TLV of the type have. -/
def subLenOk (ver type len : ℕ) : Bool :=
  match type with
  | 1 | 2 => len == 4
  | 3 | 4 => len == 16
  | 5 => len == 4
  | 6 | 7 => wordLenOk ver len
  | 8 => len ≤ 262
  | _ => false

/-- The host-order word that a state or reason value of up to four bytes means. -/
def wordOf (t : Tlv) : Bytes :=
  t.type :: beBytes16 t.value.length ++ (List.replicate (4-t.value.length) 0 ++ t.value).reverse

def swapPort (m : Mem 266) : Mem 266 := m.write 7 (m.read 7 2).reverse

/-- The record with the sub-TLV stored in the place of its type. -/
def putSub (msg : NtMsg) (type : ℕ) (t : Tlv) : NtMsg :=
  match type with
  | 1 => { msg with ipTlv := msg.ipTlv.write 0 t.encode, family := AF_INET }
  | 2 => { msg with ipTlv := msg.ipTlv.write 7 t.encode }
  | 3 => { msg with ipTlv := msg.ipTlv.write 0 t.encode, family := AF_INET6 }
  | 4 => { msg with ipTlv := msg.ipTlv.write 19 t.encode }
  | 5 => { msg with seqNumTlv := msg.seqNumTlv.write 0 t.encode }
  | 6 => { msg with stateTlv := msg.stateTlv.write 0 (wordOf t) }
  | 7 => { msg with ntReasonTlv := msg.ntReasonTlv.write 0 (wordOf t) }
  | 8 => { msg with adInfoTlv := swapPort (msg.adInfoTlv.write 0 t.encode) }
  | _ => msg

def applySub (msg : NtMsg) (t : Tlv) : NtMsg :=
  if subLenOk msg.ver t.type.toNat t.value.length then
    { putSub msg t.type.toNat t with map := msg.map ||| 2^(t.type.toNat-1) }
  else msg

/-- The record made by a list of sub-TLVs. -/
def recordOf (ver : ℕ) (subs : List Tlv) : NtMsg := subs.foldl applySub (NtMsg.init ver)
end NvmeSnsd.Server
