import NvmeSnsd.Server.Decode
import NvmeSnsd.Server.Pool

/-! Receiving a frame and answering it: each decoded record is posted to the
pool, the posted ones are collected in an acknowledgement, and a non-empty
acknowledgement is sent. -/
namespace NvmeSnsd.Server
open Lib

def snsdMaxIpPhyport : ℕ := 64

/-- `ETH_ALEN` -/
def ethAlen : ℕ := 6

/-- `struct snsd_ack_msg_info`. `tlvLen` counts payload bytes in host order
until the header is finished for sending. -/
structure AckMsgInfo where
  hDest : Mem 6
  hSource : Mem 6
  hProto : ℕ
  ver : ℕ
  reserved0 : ℕ
  tlvLen : ℕ
  reserved1 : ℕ
  payload : Mem 1492

namespace AckMsgInfo

/-- `snsd_init_ack_msg_buf` -/
def zero : AckMsgInfo := ⟨Mem.zero 6, Mem.zero 6, 0, 0, 0, 0, 0, Mem.zero 1492⟩

/-- The structure as it lies in memory. -/
def bytes (a : AckMsgInfo) : Bytes :=
  a.hDest.bytes ++ a.hSource.bytes ++ leBytes16 a.hProto ++
    ([UInt8.ofNat a.ver, UInt8.ofNat a.reserved0] ++ leBytes16 a.tlvLen ++
      (leBytes16 (a.reserved1%2^16) ++ leBytes16 (a.reserved1/2^16))) ++ a.payload.bytes

end AckMsgInfo

/-- What `snsd_client_notify` reads of a `struct snsd_listener`. -/
structure SnsdListener where
  hostIp : Vector (Mem 16) 64
  addr : Mem 6
  drop : Bool

/-- The state of the receive thread while it handles a frame. `seen` records
the pool that each decoded record met and `overruns` counts the records for
which the acknowledgement was found full. -/
structure RcvState where
  pool : MsgPool
  ack : AckMsgInfo
  seen : List MsgPool
  overruns : ℕ

def snsdEncodeEthHeader (addr : Mem 6) (ack : AckMsgInfo) : AckMsgInfo :=
  { ack with hDest := ⟨mrpBridge, rfl⟩, hSource := addr, hProto := htons ethNtsType }

def snsdEncodeAckHeader (ack : AckMsgInfo) : AckMsgInfo :=
  { ack with ver := snsdNtfVer, tlvLen := 0, reserved0 := 0, reserved1 := 0 }

def snsdBuildAckHeader (addr : Mem 6) (ack : AckMsgInfo) : AckMsgInfo :=
  snsdEncodeAckHeader (snsdEncodeEthHeader addr ack)

/-- `HOSTSHORT_LO_BYTE` -/
def hostshortLoByte (a : ℕ) : UInt8 := UInt8.ofNat (a%256)

/-- `HOSTSHORT_HI_BYTE` -/
def hostshortHiByte (a : ℕ) : UInt8 := UInt8.ofNat (a/256%256)

/-- `none` when the acknowledgement would grow past its end. -/
def snsdBuildTlvByFamily (ack : AckMsgInfo) (msg : NtMsg) (ipTlvLen : ℕ) :
    Except Fault (Option AckMsgInfo) := do
  if ack.tlvLen+(ipTlvLen+sizeofSubTlvType5) > snsdMaxTlvLen then
    return none
  let payload ← ack.payload.store ack.tlvLen [snsdMsgNotifyAckType ||| snsdTlvFormatStruct]
  let tlvLen := u16 (ack.tlvLen+snsdTlvTagSize)
  let len := htons (u16 (ipTlvLen+sizeofSubTlvType5))
  let payload ← payload.store tlvLen [hostshortLoByte len]
  let payload ← payload.store (tlvLen+1) [hostshortHiByte len]
  let tlvLen := u16 (tlvLen+snsdTlvLenSize)
  let payload ← payload.memcpy tlvLen ⟨msg.ipTlv.bytes, 0⟩ ipTlvLen
  let tlvLen := u16 (tlvLen+ipTlvLen)
  let payload ← payload.memcpy tlvLen ⟨msg.seqNumTlv.bytes, 0⟩ sizeofSubTlvType5
  let tlvLen := u16 (tlvLen+sizeofSubTlvType5)
  return some { ack with payload := payload, tlvLen := tlvLen }

/-- The length counts the source and the destination; another family adds nothing. -/
def snsdBuildAckTlvInfo (ack : AckMsgInfo) (msg : NtMsg) : Except Fault (Option AckMsgInfo) :=
  if msg.family = AF_INET then snsdBuildTlvByFamily ack msg (2*sizeofSubTlvTypeIpv4)
  else if msg.family = AF_INET6 then snsdBuildTlvByFamily ack msg (2*sizeofSubTlvTypeIpv6)
  else .ok (some ack)

/-- The frame handed to `sendto`, if any. -/
def snsdSendAck (ack : AckMsgInfo) : AckMsgInfo × Option Bytes :=
  if ack.tlvLen > snsdMaxTlvLen || ack.tlvLen = 0 then (ack, none)
  else
    let ackLen := sizeofEthHdr+sizeofNtMsgHeader+ack.tlvLen
    let ack := { ack with tlvLen := htons ack.tlvLen }
    (ack, some (ack.bytes.take ackLen))

/-- The destination is the address of some host port. -/
def snsdCheckHostipConsistent (hostIp : Vector (Mem 16) 64) (msg : NtMsg) : Bool :=
  if msg.family = AF_INET then hostIp.toList.any fun h => snsdIpMatch AF_INET h.bytes msg.dstIpv4
  else hostIp.toList.any fun h => snsdIpMatch msg.family h.bytes msg.dstIpv6

section Receive
variable (env : ℕ → MsgPool → MsgPool)

/-- `env i` is what the handler thread did to the pool before the `i`-th record. -/
def snsdDealOneMsg (hostIp : Vector (Mem 16) 64) (s : RcvState) (msg : NtMsg) :
    Except Fault RcvState := do
  let pool := env s.seen.length s.pool
  let s := { s with pool := pool, seen := s.seen ++ [pool] }
  if snsdCheckMsgComplete msg.map then
    if snsdCheckHostipConsistent hostIp msg then
      let (pool, postResult) := snsdPostOneMsg pool msg
      let s := { s with pool := pool }
      if postResult = 0 then
        match ← snsdBuildAckTlvInfo s.ack msg with
        | some ack => return { s with ack := ack }
        | none => return { s with overruns := s.overruns+1 }
      else return s
    else return s
  else return s

/-- `none` is a failed `recvmsg`; the state is that after the frame, with the
frame sent in answer. -/
def snsdClientNotify (listener : Option SnsdListener) (recv : Option Bytes) (pool : MsgPool) :
    Except Fault (RcvState × Option Bytes) := do
  let s : RcvState := ⟨pool, .zero, [], 0⟩
  match listener, recv with
  | some l, some frame =>
    if frame.length = 0 || l.drop then
      return (s, none)
    let s := { s with ack := snsdBuildAckHeader l.addr s.ack }
    let (s, _) ← snsdProcessNtMsg (snsdDealOneMsg env l.hostIp) frame s
    let (ack, sent) := snsdSendAck s.ack
    return ({ s with ack := ack }, sent)
  | _, _ => return (s, none)

end Receive

end NvmeSnsd.Server
