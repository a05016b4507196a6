import NvmeSnsd.Snsd
import NvmeSnsd.Lib.Text

/-! The ports that the pollers keep. -/
namespace NvmeSnsd.Mgt
open Lib

def IFNAMSIZ : ℕ := 16
def IFF_RUNNING : Int16 := 0x40
def SNSD_INVALID_VLAN : Int16 := -1
def MAX_PHY_PORT : ℕ := 64

/-! `enum SNSD_DEVICE_ROLE_E` -/
def SNSD_NONE : UInt8 := 0
def SNSD_CLIENT : UInt8 := 2

/-- Bit `SNSD_SERVICE_TYPE_INFORM` of the service type. -/
def serviceTypeInform : UInt8 := 0x80

/-- `struct slave_info`, with the two bits of `slave_state`. An interface index
comes from the kernel, which has no negative ones. -/
structure SlaveInfo where
  slaveIfindex : ℕ
  fdIndex : ℕ
  fd : ℤ
  fdValid : Bool
  deleted : Bool
  slaveName : Bytes
  deriving DecidableEq

/-- `struct bonding_info`, with the two bits of `bonding_states`. -/
structure BondingInfo where
  valid : Bool
  change : Bool
  slavesCount : ℤ
  bondingSlaves : Option Bytes
  slave : List SlaveInfo
  deriving DecidableEq

/-- `struct snsd_port_info`, with the two bits of `states`. -/
structure PortInfo where
  name : Bytes
  nameIndex : ℕ
  serviceType : UInt8
  family : ℕ
  ip : Bytes
  tgtip : Bytes
  mac : Bytes
  protocol : Int32
  protolRole : UInt8
  ulpPort : UInt16
  vlan : Int16
  flags : Int16
  count : UInt32
  vlanChange : Bool
  newPort : Bool
  phyIfindex : ℕ
  phyName : Bytes
  bonding : BondingInfo
  deriving DecidableEq

/-- `struct snsd_net_info`; `run` is the member of the union that the poller of
the list uses. -/
structure NetInfo (ρ : Type) where
  portInfo : PortInfo
  run : ρ

/-- What `memset` leaves. -/
def PortInfo.zero : PortInfo where
  name := List.replicate IFNAMSIZ 0
  nameIndex := 0
  serviceType := 0
  family := 0
  ip := List.replicate ipv6AddrLength 0
  tgtip := List.replicate ipv6AddrLength 0
  mac := List.replicate 6 0
  protocol := 0
  protolRole := 0
  ulpPort := 0
  vlan := 0
  flags := 0
  count := 0
  vlanChange := false
  newPort := false
  phyIfindex := 0
  phyName := List.replicate IFNAMSIZ 0
  bonding := ⟨false, false, 0, none, []⟩

/-- The IPv4 address. -/
def PortInfo.addr (p : PortInfo) : Bytes := p.ip.take ipv4AddrLength

/-- The target address stored over the old one. -/
def PortInfo.setTgtip (p : PortInfo) (target : Bytes) : PortInfo :=
  { p with tgtip := target ++ p.tgtip.drop ipv4AddrLength }

@[simp] theorem PortInfo.setTgtip_addr (p : PortInfo) (target : Bytes) :
    (p.setTgtip target).addr = p.addr := rfl

/-- `is_linkup` -/
def isLinkup (flags : Int16) : Bool := flags &&& IFF_RUNNING == IFF_RUNNING

end NvmeSnsd.Mgt
