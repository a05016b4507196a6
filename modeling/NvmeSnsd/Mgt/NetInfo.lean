import NvmeSnsd.Mgt.Bonding
import NvmeSnsd.Mgt.CfgMatch

/-! One poll of the interfaces: the list of ports is brought up to date, and the
ports without a configuration or with a protocol that is not theirs leave it. -/
namespace NvmeSnsd.Mgt
open Lib Cfg

/-- An entry of `SIOCGIFCONF`, with what the calls made for it answer: the two
`ioctl`s on its name, `SIOCGIFINDEX` by name, and the slaves file of a device. -/
structure Ifreq where
  ifrName : Bytes
  family : ℕ
  addr : Bytes
  hwaddr : Option Bytes
  ifrFlags : Option Int16
  ifindex : Bytes → Option ℕ
  slaves : Bytes → Option Bytes

/-- A directory of InfiniBand devices: its name, and the interfaces in
`device/net`. -/
structure IbDir where
  name : Bytes
  net : Option (List Bytes)

/-- What the system answers in one poll. `bonding` is the masters file, if there
is one, and `uninit` is what the result holds before it is set. -/
structure NetSystem where
  ifconf : Option (List Ifreq)
  bonding : Option (Option Bytes)
  vlan : Option Bytes
  ib : PortInfo → Option (List IbDir)
  uninit : ℤ

/-- An `ifr_name` array. -/
def nameArray (name : Bytes) : Bytes := (name ++ List.replicate IFNAMSIZ 0).take IFNAMSIZ

/-- The `sin_addr` of the entry. -/
def Ifreq.sinAddr (ifr : Ifreq) : Bytes :=
  (ifr.addr ++ List.replicate ipv4AddrLength 0).take ipv4AddrLength

section Get
variable {ρ : Type}

/-- `snsd_get_new`, with what the caller sets; `fresh` is the zeroed union. -/
def snsdGetNew (fresh : ρ) (count : UInt32) (ifr : Ifreq) : NetInfo ρ where
  portInfo := { PortInfo.zero with
    family := ifr.family
    ip := ifr.sinAddr ++ PortInfo.zero.ip.drop ipv4AddrLength
    name := nameArray ifr.ifrName
    newPort := true
    count := count - 1
    vlan := SNSD_INVALID_VLAN }
  run := fresh

/-- The test for an old entry. -/
def isOld (ifr : Ifreq) (net : NetInfo ρ) : Bool :=
  net.portInfo.name == nameArray ifr.ifrName &&
    net.portInfo.addr == ifr.sinAddr

/-- `snsd_try_find_old`: the entry, with what stands before and behind it. -/
def snsdTryFindOld (fresh : ρ) (count : UInt32) (ifr : Ifreq) (nets : List (NetInfo ρ)) :
    List (NetInfo ρ) × NetInfo ρ × List (NetInfo ρ) :=
  match nets.dropWhile (!isOld ifr ·) with
  | [] => (nets, snsdGetNew fresh count ifr, [])
  | net :: post =>
    (nets.takeWhile (!isOld ifr ·),
      { net with portInfo := { net.portInfo with newPort := false } }, post)

/-- `snsd_get_mac_and_flags` -/
def snsdGetMacAndFlags (ifr : Ifreq) (port : PortInfo) : PortInfo × ℤ :=
  match ifr.hwaddr with
  | none => (port, -EAGAIN)
  | some mac =>
    let port := { port with mac := mac }
    match ifr.ifrFlags with
    | none => (port, -EAGAIN)
    | some flags => ({ port with flags := flags }, 0)

/-- The device below a port with a VLAN, in `snsd_get_mix_info`. -/
def snsdGetPhy (ifr : Ifreq) (group : List Bytes) (vlanInfo : Bytes) (pos : ℕ) (port : PortInfo) :
    Except Fault (PortInfo × Bytes × ℤ) :=
  match snsdGetPhyIfname vlanInfo pos with
  | none => .ok (port, [], -EAGAIN)
  | some phy => do
    let (bonding, ret) ←
      snsdCheckGetSlave ifr.ifindex group phy (ifr.slaves phy) port.bonding
    let port := { port with bonding := bonding }
    if ret ≠ 0 then return (port, [], ret)
    return ({ port with phyName := nameArray phy }, phy, 0)

/-- The VLAN is stored, and its change marked until a poll finds it unchanged. -/
def setVlan (vlan : Int16) (port : PortInfo) : PortInfo :=
  if port.vlan ≠ vlan then
    { port with
      vlanChange := if port.vlan ≠ SNSD_INVALID_VLAN then true else port.vlanChange
      vlan := vlan }
  else { port with vlanChange := false }

/-- `snsd_get_mix_info` -/
def snsdGetMixInfo (ifr : Ifreq) (group : List Bytes) (vlanInfo : Bytes) (port : PortInfo) :
    Except Fault (PortInfo × ℤ) := do
  let (vlan, pos) ← snsdFillVlan port.name vlanInfo
  let (port, name, ret) ←
    (if vlan = SNSD_INVALID_VLAN then .ok (port, cstr port.name, 0)
    else snsdGetPhy ifr group vlanInfo pos port)
  if ret ≠ 0 then return (port, ret)
  let port := setVlan vlan port
  match ifr.ifindex name with
  | none => return (port, -EAGAIN)
  | some index => return ({ port with phyIfindex := index }, 0)

/-- The loop body of `snsd_get_net_info` for an IPv4 interface. -/
def snsdGetOne (fresh : ρ) (anyProtocol : Int32) (count : UInt32) (group : List Bytes)
    (vlanInfo : Bytes) (ifr : Ifreq) (nets : List (NetInfo ρ)) :
    Except Fault (List (NetInfo ρ) × ℤ) := do
  let (pre, net, post) := snsdTryFindOld fresh count ifr nets
  let (port, ret) := snsdGetMacAndFlags ifr net.portInfo
  if ret ≠ 0 then return (pre ++ { net with portInfo := port } :: post, ret)
  let (port, ret) ← snsdGetMixInfo ifr group vlanInfo port
  if ret ≠ 0 then return (pre ++ { net with portInfo := port } :: post, ret)
  -- vlan must valid
  if port.vlan = SNSD_INVALID_VLAN then
    if port.newPort then return (pre ++ post, 0)
    return (pre ++ { net with portInfo := port } :: post, 0)
  return (pre ++ { net with portInfo := { port with protocol := anyProtocol, count := count } } ::
    post, 0)

/-- The loop, which the first failure ends. -/
def snsdGetLoop (fresh : ρ) (anyProtocol : Int32) (count : UInt32) (group : List Bytes)
    (vlanInfo : Bytes) : List Ifreq → List (NetInfo ρ) → ℤ → Except Fault (List (NetInfo ρ) × ℤ)
  | [], nets, ret => .ok (nets, ret)
  | ifr :: rest, nets, ret =>
    if ifr.family = AF_INET then do
      let (nets, ret) ← snsdGetOne fresh anyProtocol count group vlanInfo ifr nets
      if ret ≠ 0 then return (nets, ret)
      snsdGetLoop fresh anyProtocol count group vlanInfo rest nets ret
    else snsdGetLoop fresh anyProtocol count group vlanInfo rest nets ret

/-- The names of the bonds. -/
def bondingGroup : Option (Option Bytes) → List Bytes
  | some (some text) => endedNames MAX_PHY_PORT text
  | _ => []

/-- `snsd_get_net_info`, after the list of interfaces has been asked for. -/
def snsdGetNetInfo (fresh : ρ) (anyProtocol : Int32) (count : UInt32) (sys : NetSystem)
    (ifs : List Ifreq) (nets : List (NetInfo ρ)) : Except Fault (List (NetInfo ρ) × ℤ) :=
  if sys.bonding = some none then .ok (nets, -EAGAIN)
  else
    match sys.vlan with
    | none | some [] => .ok (nets, -EAGAIN)
    | some vlanInfo =>
      -- without the masters file the result is not set before the loop
      let ret := if sys.bonding.isSome then 0 else sys.uninit
      snsdGetLoop fresh anyProtocol count (bondingGroup sys.bonding) vlanInfo ifs nets ret

/-- `snsd_all_net_info` -/
def snsdAllNetInfo (fresh : ρ) (anyProtocol : Int32) (count : UInt32) (sys : NetSystem)
    (nets : List (NetInfo ρ)) : Except Fault (List (NetInfo ρ) × ℤ) :=
  match sys.ifconf with
  | none => .ok (nets, -EAGAIN)
  | some ifs => snsdGetNetInfo fresh anyProtocol count sys ifs nets

end Get

section Protocol
variable {ρ : Type}

/-- The entries that every directory has. -/
def isDot (name : Bytes) : Bool := name == ascii "." || name == ascii ".."

/-- `snsd_check_ib_one_port` -/
def snsdCheckIbOnePort (port : PortInfo) : Option (List Bytes) → Bool
  | none => false
  | some names =>
    names.any fun name =>
      !isDot name &&
        if port.bonding.valid then port.bonding.slave.any (·.slaveName == name)
        else name == cstr port.phyName

/-- The search of `snsd_protocol_ib` through the device directory. -/
def ibFinds (ib : Option (List IbDir)) (port : PortInfo) : Bool :=
  match ib with
  | none => false
  | some dirs => dirs.any fun dir => !isDot dir.name && snsdCheckIbOnePort port dir.net

/-- `snsd_protocol_ib`: a known port is only looked up again while its bond
changes. -/
def snsdProtocolIb (ib : Option (List IbDir)) (port : PortInfo) : Bool :=
  if !port.newPort && !(port.bonding.valid && port.bonding.change) then true
  else if port.bonding.valid && port.bonding.slavesCount == 0 then false
  else ibFinds ib port

/-- The handler that `protocol_options` has for a protocol, or none. -/
def protocolHandle (ib : Option (List IbDir)) (port : PortInfo) : Bool :=
  if port.protocol = Int32.ofNat SNSD_PROTOCOL_ROCE then snsdProtocolIb ib port
  -- snsd_protocol_unsupport, and protocols that are not in the table
  else false

/-- What is checked of a port: not config protocol, default roce. -/
def PortInfo.defaultRoce (port : PortInfo) : PortInfo :=
  if port.protocol = 0 then { port with protocol := Int32.ofNat SNSD_PROTOCOL_ROCE } else port

/-- The flag that `snsd_protocol_handle` computes for a port. -/
def protocolFlag (sys : NetSystem) (port : PortInfo) : Bool :=
  protocolHandle (sys.ib port.defaultRoce) port.defaultRoce

/-- The turn of `snsd_protocol_handle` for a port of this poll. -/
def snsdProtocolOne (sys : NetSystem) (net : NetInfo ρ) : Option (NetInfo ρ) :=
  let port := net.portInfo.defaultRoce
  if protocolFlag sys net.portInfo then some { net with portInfo := port }
  else if port.newPort then none
  -- delete port_info later
  else some { net with portInfo := { port with count := port.count - 1 } }

/-- `snsd_protocol_handle` -/
def snsdProtocolHandle (sys : NetSystem) (count : UInt32) (nets : List (NetInfo ρ)) :
    List (NetInfo ρ) :=
  nets.filterMap fun net =>
    if net.portInfo.count ≠ count then some net else snsdProtocolOne sys net

end Protocol

/-- `snsd_cfg_net_info`; the list is given back as it is left. -/
def snsdCfgNetInfo {ρ : Type} (pton : Pton) (s : CfgState) (fresh : ρ) (mode : SnsdMode)
    (sys : NetSystem) (count : UInt32) (nets : List (NetInfo ρ)) :
    Except Fault (List (NetInfo ρ) × ℤ) :=
  if (s.anyflag ≠ .yes ∧ mode = .sw ∧ s.swInfoList = []) ∨ (mode = .dc ∧ s.dcInfoList = []) then
    .ok (nets, -EPERM)
  else do
    -- get all net info
    let (nets, ret) ← snsdAllNetInfo fresh s.anyProtocol count sys nets
    if ret ≠ 0 then return (nets, -EPERM)
    -- delete the port without config
    let nets := snsdDealwithCfg pton s mode nets
    return (snsdProtocolHandle sys count nets, 0)

end NvmeSnsd.Mgt
