import NvmeSnsd.Lib.PackedTlv
import NvmeSnsd.Mgt.Port

/-! The frame that registers a port at the switch, written field by field into an
object that `malloc` left as it was. -/
namespace NvmeSnsd.Reg
open Lib Mgt

def MAC_LENGTH : ℕ := 6
def LLDP_EXTEND_SUB_TYPE : UInt8 := 101
def LLDP_EXTEND_SMART_VERSION : UInt8 := 1
def LLDP_TLV_TYPE_SHIFT_LEFT_BIT : ℕ := 9
def LLDP_SMART_PREFIX : Bytes := [115, 110, 115, 100, 95]
def LLDP_MAX_LENGTH : ℕ := 1514
def LLDP_PROTOCOL_TYPE : ℕ := 0x88cc
def LLDP_OLD_TIME : ℕ := 120
def NVMEOF_VERSION : ℕ := 0x101
def LLDP_ADDR_TYPE_IPV4 : UInt8 := 1
def LLDP_ADDR_TYPE_IPV6 : UInt8 := 2

def LLDP_TYPE_END : ℕ := 0
def LLDP_TYPE_CHASSIS_ID : ℕ := 1
def LLDP_TYPE_PORT_ID : ℕ := 2
def LLDP_TYPE_TIME_TO_LIVE : ℕ := 3
def LLDP_TYPE_EXTEND : ℕ := 127

def LLDP_CHASSIS_ID_SUB_TYPE_MAC : UInt8 := 4
def LLDP_PORT_ID_SUB_TYPE_NAME : UInt8 := 5
def LLDP_CHASSIS_ID_TLV_LENGTH : ℕ := MAC_LENGTH+1

def sizeofEthHeader : ℕ := 14
def sizeofChassisIdTlv : ℕ := 9
def sizeofPortIdTlv : ℕ := 3
def sizeofTimeToLiveTlv : ℕ := 4
def sizeofSmartTlv : ℕ := 33
def sizeofEndTlv : ℕ := 2

example : LLDP_SMART_PREFIX = ascii "snsd_" := by decide

/-- `__cpu_to_be16`, as it is stored. -/
def cpuToBe16 (x : ℕ) : Bytes := leBytes16 (htons (u16 x))

/-- The first half-word of an item. -/
def typeLength (type len : ℕ) : Bytes :=
  cpuToBe16 (type <<< LLDP_TLV_TYPE_SHIFT_LEFT_BIT ||| len)

/-- The group that switches listen to. -/
def dstAddr : Bytes := [0x01, 0x80, 0xc2, 0x00, 0x00, 0x0e]

/-! Each function writes at `p` of an object of `n` bytes. -/

section Items
variable {n : ℕ}

def lldpInitEthHeader (m : Mem n) (p : ℕ) (mac : Bytes) : Except Fault (Mem n) := do
  let m ← m.store p dstAddr
  let m ← m.memcpy (p+6) ⟨mac, 0⟩ MAC_LENGTH
  m.store (p+12) (cpuToBe16 LLDP_PROTOCOL_TYPE)

def lldpInitChassisIdTlv (m : Mem n) (p : ℕ) (mac : Bytes) : Except Fault (Mem n) := do
  let m ← m.store p (typeLength LLDP_TYPE_CHASSIS_ID LLDP_CHASSIS_ID_TLV_LENGTH)
  let m ← m.store (p+2) [LLDP_CHASSIS_ID_SUB_TYPE_MAC]
  m.memcpy (p+3) ⟨mac, 0⟩ MAC_LENGTH

def lldpCreatePortIdTlv (m : Mem n) (p : ℕ) (name : Ptr) : Except Fault (Mem n × ℕ) := do
  let prefixLength := LLDP_SMART_PREFIX.length
  let nameLength ← name.strlen
  let m ← m.memcpy (p+3) ⟨LLDP_SMART_PREFIX, 0⟩ prefixLength
  let m ← m.memcpy (p+3+prefixLength) name nameLength
  let nameLength := nameLength+prefixLength
  let length := nameLength+sizeofPortIdTlv
  -- one more for the sub type
  let m ← m.store p (typeLength LLDP_TYPE_PORT_ID (nameLength+1))
  let m ← m.store (p+2) [LLDP_PORT_ID_SUB_TYPE_NAME]
  return (m, length)

def lldpInitTimeToLiveTlv (m : Mem n) (p time : ℕ) : Except Fault (Mem n) := do
  let m ← m.store p (typeLength LLDP_TYPE_TIME_TO_LIVE 2)
  m.store (p+2) (cpuToBe16 time)

/-- The address of an extended item and what kind it is. -/
def smartTlvAddr (m : Mem n) (p : ℕ) (port : PortInfo) : Except Fault (Mem n) := do
  let serviceType := port.serviceType &&& 0xf0
  if port.family = AF_INET then
    let m ← m.store (p+7) [serviceType ||| LLDP_ADDR_TYPE_IPV4]
    m.memcpy (p+10) ⟨port.ip, 0⟩ ipv4AddrLength
  else
    let m ← m.store (p+7) [serviceType ||| LLDP_ADDR_TYPE_IPV6]
    m.memcpy (p+10) ⟨port.ip, 0⟩ ipv6AddrLength

/-- `lldp_create_smart_tlv`; no name stands for a null pointer. -/
def lldpCreateSmartTlv (m : Mem n) (p : ℕ) (port : PortInfo) (nqnName : Option (CStr 256)) :
    Except Fault (Mem n × ℕ) := do
  let nqn := (nqnName.map (·.text)).getD []
  let nqnLength := u16 nqn.length
  let length := nqnLength+sizeofSmartTlv
  let m ← m.store p (List.replicate length 0)
  let m ← m.store (p+2) [0, 0x18, 0x82]
  let m ← m.store (p+5) [LLDP_EXTEND_SUB_TYPE]
  let m ← m.store (p+6) [LLDP_EXTEND_SMART_VERSION]
  let m ← smartTlvAddr m p port
  let m ← m.store (p+26) [port.protolRole]
  let m ← m.store (p+27) [UInt8.ofInt port.protocol.toInt]
  let m ← m.store (p+28) (cpuToBe16 NVMEOF_VERSION)
  let m ← m.store (p+30) (cpuToBe16 port.ulpPort.toNat)
  let m ← m.store (p+32) [UInt8.ofNat nqnLength]
  let m ← m.memcpy (p+33) ⟨nqn, 0⟩ nqnLength
  -- the length of an item leaves its first half-word out
  let m ← m.store p (typeLength LLDP_TYPE_EXTEND (length-2))
  return (m, length)

def lldpInitEndTlv (m : Mem n) (p : ℕ) : Except Fault (Mem n) := m.store p (leBytes16 0)

end Items

/-- The decimal digit of `d`. -/
def digit (d : ℕ) : UInt8 := UInt8.ofNat (48+d%10)

def lldpCreatePortId (portId : Mem (IFNAMSIZ+3)) (name : Bytes) (nameIndex : ℕ) :
    Except Fault (Mem (IFNAMSIZ+3)) := do
  let portId ← portId.strcpy 0 ⟨name, 0⟩
  let pos ← Ptr.strlen ⟨portId.bytes, 0⟩
  let portId ← portId.store pos [95]
  let portId ← portId.store (pos+1) [digit (nameIndex/10)]
  let portId ← portId.store (pos+2) [digit nameIndex]
  portId.store (pos+3) [0]

/-- `lldp_send` as far as `send`: the bytes it hands over. The object and the local
array hold what was there before. -/
def lldpSend (lldp : Mem LLDP_MAX_LENGTH) (portId : Mem (IFNAMSIZ+3)) (port : PortInfo)
    (nqnName : Option (CStr 256)) : Except Fault Bytes := do
  let lldp ← lldpInitEthHeader lldp 0 port.mac
  let offset := sizeofEthHeader
  let lldp ← lldpInitChassisIdTlv lldp offset port.mac
  let offset := offset+sizeofChassisIdTlv
  let portId ← lldpCreatePortId portId port.name port.nameIndex
  let (lldp, length) ← lldpCreatePortIdTlv lldp offset ⟨portId.bytes, 0⟩
  let offset := offset+length
  let lldp ← lldpInitTimeToLiveTlv lldp offset LLDP_OLD_TIME
  let offset := offset+sizeofTimeToLiveTlv
  let (lldp, length) ← lldpCreateSmartTlv lldp offset port nqnName
  let offset := offset+length
  let lldp ← lldpInitEndTlv lldp offset
  let offset := offset+sizeofEndTlv
  return lldp.read 0 offset

end NvmeSnsd.Reg
