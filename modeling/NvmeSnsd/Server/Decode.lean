import NvmeSnsd.Lib.Loop
import NvmeSnsd.Server.Message

/-! Decoding a received frame. Positions are the unsigned counters of the code,
every access goes through a pointer into the frame, and the loops run on a
bound that is proved to be enough. -/
namespace NvmeSnsd.Server
open Lib

def ethNtsType : ℕ := 0x88A7
def snsdNtfVer : ℕ := 1
def snsdMaxBufferLen : ℕ := 1514

/-- `sizeof(struct ethhdr)` -/
def sizeofEthHdr : ℕ := 14

/-- `sizeof(nt_msg_header)` -/
def sizeofNtMsgHeader : ℕ := 8

/-- `SNSD_MAX_TLV_LEN` -/
def snsdMaxTlvLen : ℕ := 1500-sizeofNtMsgHeader

def mrpBridge : Bytes := [0x01, 0x80, 0xc2, 0x00, 0x00, 0x0d]

/-- `tlv_len` and `ver` of a frame whose headers are accepted, `none` for
`-EACCES`. The comparisons with a `sizeof` are made in `size_t`. -/
def snsdGetMsgHeader (buf : Ptr) (len : ℤ) : Except Fault (Option (ℕ × ℕ)) := do
  if len%2^64 < (sizeofNtMsgHeader+sizeofEthHdr : ℕ) || len > (snsdMaxBufferLen : ℕ) then
    return none
  let eth ← buf.load sizeofEthHdr
  if ntohs (leVal ((eth.drop 12).take 2)) ≠ ethNtsType then
    return none
  if eth.take 6 ≠ mrpBridge then
    return none
  let hdr ← (buf.add sizeofEthHdr).load sizeofNtMsgHeader
  let ver := leVal (hdr.take 1)
  if ver > snsdNtfVer then
    return none
  let tlvSumLen := ntohs (leVal ((hdr.drop 2).take 2))
  if tlvSumLen = 0 || (tlvSumLen : ℤ) > (len-(sizeofNtMsgHeader+sizeofEthHdr : ℕ))%2^64 then
    return none
  return some (tlvSumLen, ver)

def snsdGetType (buf : Ptr) : Except Fault UInt8 := do
  let b ← buf.load 1
  return b.headD 0

def snsdGetLen (buf : Ptr) : Except Fault ℕ := do
  let b ← buf.load 2
  return ntohs (leVal b)

/-- One call of a sub-TLV handler: the value of the root it belongs to, and
the value it was given, as offsets from `buf`. -/
structure ValueCall where
  rootPos : ℕ
  rootLen : ℕ
  pos : ℕ
  len : ℕ
  deriving DecidableEq, Repr

structure SubState where
  subTlvLen : ℕ
  subPos : ℕ
  msg : NtMsg
  calls : List ValueCall

def subBody (buf : Ptr) (rootPos rootLen : ℕ) (s : SubState) : Except Fault (Ctl SubState) := do
  let subTlvLen := u32 (s.subTlvLen+snsdTlvTagSize)
  if u32 (subTlvLen+snsdTlvTagSize) > rootLen then
    return .done s
  let subType ← snsdGetType (buf.add s.subPos)
  let subPos := u32 (s.subPos+snsdTlvTagSize)
  let subTlvLen := u32 (subTlvLen+snsdTlvLenSize)
  if subTlvLen > rootLen then
    return .done s
  let subValueLen ← snsdGetLen (buf.add subPos)
  let subPos := u32 (subPos+snsdTlvLenSize)
  let subTlvLen := u32 (subTlvLen+subValueLen)
  if subTlvLen > rootLen then
    return .done s
  let msg ← snsdGetValue (buf.add subPos) subType subValueLen s.msg
  let s' : SubState :=
    ⟨subTlvLen, u32 (subPos+subValueLen), msg, s.calls ++ [⟨rootPos, rootLen, subPos, subValueLen⟩]⟩
  return if subTlvLen ≤ rootLen then .again s' else .done s'

def snsdDecodeSubTlv (buf : Ptr) (rootPos rootLen : ℕ) (msg : NtMsg) (calls : List ValueCall) :
    Except Fault (NtMsg × List ValueCall) := do
  let s ← loop (subBody buf rootPos rootLen) (rootLen+1) ⟨0, u32 (0+rootPos), msg, calls⟩
  return (s.msg, s.calls)

structure RootState (σ : Type) where
  rootPos : ℕ
  acc : σ
  calls : List ValueCall

section Root
variable {σ : Type} (deal : σ → NtMsg → Except Fault σ)

def rootBody (buf : Ptr) (len ver : ℕ) (s : RootState σ) : Except Fault (Ctl (RootState σ)) := do
  let msg := NtMsg.init ver
  if u32 (s.rootPos+snsdTlvTagSize) > len then
    return .done s
  let rootType ← snsdGetType (buf.add s.rootPos)
  if rootType &&& snsdTlvFormatStruct = 0 || rootType &&& snsdMsgNotifyMask ≠ snsdMsgNotifyType then
    return .done s
  let rootPos := u32 (s.rootPos+snsdTlvTagSize)
  if u32 (rootPos+snsdTlvLenSize) > len then
    return .done s
  let rootLen ← snsdGetLen (buf.add rootPos)
  let rootPos := u32 (rootPos+snsdTlvLenSize)
  if u32 (rootPos+rootLen) > len then
    return .done s
  let (msg, calls) ← snsdDecodeSubTlv buf rootPos rootLen msg s.calls
  let acc ← deal s.acc msg
  let s' : RootState σ := ⟨u32 (rootPos+rootLen), acc, calls⟩
  return if s'.rootPos ≤ len then .again s' else .done s'

/-- `deal` is what `snsd_deal_one_msg` does with each decoded record. -/
def snsdDecodeNtTlv (buf : Ptr) (len ver : ℕ) (acc : σ) : Except Fault (σ × List ValueCall) := do
  let s ← loop (rootBody deal buf len ver) (len+1) ⟨0, acc, []⟩
  return (s.acc, s.calls)

/-- The header and then the records; a refused header leaves no records. -/
def snsdProcessNtMsg (frame : Bytes) (acc : σ) : Except Fault (σ × List ValueCall) := do
  match ← snsdGetMsgHeader ⟨frame, 0⟩ frame.length with
  | none => return (acc, [])
  | some (tlvLen, ver) =>
    snsdDecodeNtTlv deal (Ptr.add ⟨frame, 0⟩ (sizeofNtMsgHeader+sizeofEthHdr)) tlvLen ver acc

end Root

/-- The records handed to `snsd_deal_one_msg`, in order. -/
def dealtMsgs (buf : Ptr) (len ver : ℕ) : Except Fault (List NtMsg) := do
  let (msgs, _) ← snsdDecodeNtTlv (fun msgs msg => .ok (msgs ++ [msg])) buf len ver []
  return msgs

/-! The reference grammar. -/

/-- A structured item of notify type. -/
def isNotifyRoot (type : UInt8) : Bool :=
  type &&& snsdTlvFormatStruct ≠ 0 && type &&& snsdMsgNotifyMask = snsdMsgNotifyType

def rootTlvs (b : Bytes) : List Tlv := Tlv.parse isNotifyRoot b

def subTlvs (root : Tlv) : List Tlv := Tlv.parse (fun _ => true) root.value

/-- The records that a byte string carries. -/
def grammarMsgs (ver : ℕ) (b : Bytes) : List NtMsg :=
  (rootTlvs b).map fun root => recordOf ver (subTlvs root)

end NvmeSnsd.Server
