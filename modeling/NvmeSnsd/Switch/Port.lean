import NvmeSnsd.Switch.Fd
import NvmeSnsd.Mgt.NetSpec

/-! The poll of the ports behind a switch: what is done for a port in its turn. -/
namespace NvmeSnsd.Switch
open Lib Cfg Mgt

/-- The polls between two checks, 10 seconds of them. -/
def SWITCH_POLL_INTEVAL : UInt32 := 100

/-- `struct lldp_run_info`, with the bit of `flags`. -/
structure LldpRunInfo where
  valid : Bool
  fd : ℤ
  expires : ℕ
  intervalClock : ℕ
  index : Fin MAX_PHY_PORT
  disconnect : Bool
  deriving DecidableEq

/-- What `memset` leaves. -/
def LldpRunInfo.zero : LldpRunInfo := ⟨false, 0, 0, 0, ⟨0, maxPhyPort_pos⟩, false⟩

abbrev SwitchNet := NetInfo LldpRunInfo

/-- A call of `lldp_send` or `lldp_send_bonding` for a port, a query for its zone, or
its deletion while it holds a place: the key of the port, and with it the interface of
its place and its index there. -/
inductive SwitchEvent
  | lldp (time : ℕ) (key : Bytes × Bytes) (ifindex : ℤ) (nameIndex : ℕ)
  | query (key : Bytes × Bytes)
  | delete (time : ℕ) (key : Bytes × Bytes) (ifindex : ℤ) (nameIndex : ℕ)
  deriving DecidableEq

/-- What the calls for a new place answer: for the port, for each slave, and the clock
when the place of the port is given back. -/
structure GetAnswer where
  phy : FdAnswer
  slaves : ℕ → FdAnswer
  putTime : ℕ

/-- What the calls in the turn of a port answer. `now` is the clock at its check,
`freed` at each place that its deletion gives back. -/
structure TurnAnswer where
  now : ℕ
  get : GetAnswer
  sent : ℤ
  disconnected : ℤ
  freed : ℕ → ℕ

/-- `switch_get_phy_fd` -/
def switchGetPhyFd (ans : FdAnswer) (table : FdTable) (net : SwitchNet) :
    FdTable × SwitchNet × Bool :=
  match switchGetFdData ans table net.portInfo.phyIfindex true with
  | (table, none) => (table, net, false)
  | (table, some (i, index)) =>
    (table, { net with portInfo := { net.portInfo with nameIndex := index },
                       run := { net.run with index := i, fd := (table.get i).fd } }, true)

/-- `switch_get_bonding_phy_fd` -/
def switchGetBondingPhyFd (ans : FdAnswer) (table : FdTable) (net : SwitchNet) :
    FdTable × SwitchNet × Bool :=
  match switchGetFdInfo ans.clock table net.portInfo.phyIfindex true with
  | (table, none) => (table, net, false)
  | (table, some (i, index)) =>
    (table, { net with portInfo := { net.portInfo with nameIndex := index },
                       run := { net.run with index := i } }, true)

/-- The slaves of a port after `switch_get_bonding_fd`. -/
def withBonding (net : SwitchNet) (bonding : BondingInfo) : SwitchNet :=
  { net with portInfo := { net.portInfo with bonding := bonding } }

/-- `switch_get_fd` -/
def switchGetFd (ans : GetAnswer) (table : FdTable) (net : SwitchNet) : FdTable × SwitchNet :=
  if net.portInfo.bonding.valid then
    match switchGetBondingPhyFd ans.phy table net with
    | (table, net, false) => (table, net)
    | (table, net, true) =>
      let r := switchGetBondingFd ans.slaves table net.portInfo.bonding
      let net := withBonding net r.2.1
      if r.2.2 = 0 then (r.1, { net with run := { net.run with valid := true } })
      -- the slaves keep the places that they got
      else (switchPutFdInfo ans.putTime r.1 net.run.index net.portInfo.nameIndex, net)
  else
    match switchGetPhyFd ans.phy table net with
    | (table, net, false) => (table, net)
    | (table, net, true) => (table, { net with run := { net.run with valid := true } })

/-- `switch_check_lldp_send`; `sent` is what the sending returns. -/
def switchCheckLldpSend (sent : ℤ) (now : ℕ) (table : FdTable) (net : SwitchNet) :
    SwitchNet × List SwitchEvent :=
  if isLinkup net.portInfo.flags ∧ net.run.expires ≤ now then
    ({ net with run := { net.run with
        expires := if sent = 0 then now+net.run.intervalClock else now } },
      [.lldp now net.portInfo.key (table.get net.run.index).ifindex net.portInfo.nameIndex])
  else (net, [])

/-- `calc_expires_for_new` -/
def calcExpiresForNew (table : FdTable) (index : Fin MAX_PHY_PORT) (now : ℕ) : ℕ :=
  if (table.get index).oldTime < now then now else (table.get index).oldTime

/-- `snsd_query_zone_for_port` -/
def snsdQueryZoneForPort (net : SwitchNet) : List SwitchEvent :=
  if isLinkup net.portInfo.flags then [.query net.portInfo.key] else []

/-- `switch_port_exist_handle` for a port that has its place. -/
def switchPortValidHandle (ans : TurnAnswer) (table : FdTable) (net : SwitchNet) :
    FdTable × SwitchNet × List SwitchEvent :=
  if net.portInfo.vlanChange then
    -- lldp old when modify vlan id but keep ip and eth name same
    (table, { net with run := { net.run with
      expires := ans.now+LLDP_OLD_TIME+LLDP_WAIT_OLD_TIME } }, [])
  else
    let r := switchCheckLldpSend ans.sent ans.now table net
    (table, r.1, r.2)

/-- `switch_port_exist_handle` -/
def switchPortExistHandle (ans : TurnAnswer) (table : FdTable) (net : SwitchNet) :
    FdTable × SwitchNet × List SwitchEvent :=
  if net.run.valid then
    if net.portInfo.bonding.change then
      let r := switchGetBondingFd ans.get.slaves table net.portInfo.bonding
      let net := withBonding net r.2.1
      if r.2.2 ≠ 0 then (r.1, net, []) else switchPortValidHandle ans r.1 net
    else switchPortValidHandle ans table net
  else
    let (table, net) := switchGetFd ans.get table net
    if net.run.valid then
      let net := { net with run := { net.run with
        intervalClock := LLDP_INTERVAL_CLOCK
        expires := calcExpiresForNew table net.run.index ans.now } }
      let r := switchCheckLldpSend ans.sent ans.now table net
      (table, r.1, r.2 ++ snsdQueryZoneForPort r.1)
    else (table, net, [])

/-- `switch_port_handle_disconnect`; `ret` is what the disconnection returns. -/
def switchPortHandleDisconnect (ret : ℤ) (net : SwitchNet) : SwitchNet :=
  if isLinkup net.portInfo.flags then { net with run := { net.run with disconnect := false } }
  else if net.run.disconnect = false ∧ ret = 0 then
    { net with run := { net.run with disconnect := true } }
  else net

/-- `switch_free_bonding_fd` -/
def switchFreeBondingFd : (ℕ → ℕ) → FdTable → List SlaveInfo → FdTable
  | _, table, [] => table
  | freed, table, slave :: rest =>
    switchFreeBondingFd (fun n => freed (n+1)) (switchFreeSlaveFd (freed 0) table slave) rest

/-- `switch_port_delete`: the table, and the event if the port held a place. -/
def switchPortDelete (freed : ℕ → ℕ) (table : FdTable) (net : SwitchNet) :
    FdTable × List SwitchEvent :=
  if net.run.valid then
    let event := SwitchEvent.delete (freed 0) net.portInfo.key
      (table.get net.run.index).ifindex net.portInfo.nameIndex
    let table := switchPutFdInfo (freed 0) table net.run.index net.portInfo.nameIndex
    if net.portInfo.bonding.valid then
      (switchFreeBondingFd (fun n => freed (n+1)) table net.portInfo.bonding.slave, [event])
    else (table, [event])
  else (table, [])

/-- `switch_need_check_lldp` -/
def switchNeedCheckLldp (preCount now : UInt32) : Bool :=
  let interval := if now ≥ preCount then now-preCount else 0xffffffff-now+preCount+1
  interval ≥ SWITCH_POLL_INTEVAL

/-- The loop body of `switch_port_handle`. -/
def switchPortOne (needCheck : Bool) (pollCount : UInt32) (ans : TurnAnswer) (table : FdTable)
    (net : SwitchNet) : FdTable × Option SwitchNet × List SwitchEvent :=
  if net.portInfo.count = pollCount then
    let r := if needCheck then switchPortExistHandle ans table net else (table, net, [])
    (r.1, some (switchPortHandleDisconnect ans.disconnected r.2.1), r.2.2)
  else if ans.disconnected = 0 then
    let r := switchPortDelete ans.freed table net
    (r.1, none, r.2)
  else (table, some net, [])

/-- The loop of `switch_port_handle`; `ans` has the answers for each turn. -/
def switchPortLoop (needCheck : Bool) (pollCount : UInt32) :
    (ℕ → TurnAnswer) → FdTable → List SwitchNet → FdTable × List SwitchNet × List SwitchEvent
  | _, table, [] => (table, [], [])
  | ans, table, net :: nets =>
    let r := switchPortOne needCheck pollCount (ans 0) table net
    let rest := switchPortLoop needCheck pollCount (fun n => ans (n+1)) r.1 nets
    (rest.1, r.2.1.toList ++ rest.2.1, r.2.2 ++ rest.2.2)

/-- What lives from one call of `switch_port_handle` to the next: the list of ports,
the table, and the number of the poll that made the last check. -/
structure SwitchState where
  nets : List SwitchNet
  table : FdTable
  count : UInt32

/-- `switch_port_handle` -/
def switchPortHandle (pton : Pton) (s : CfgState) (sys : NetSystem) (pollCount : UInt32)
    (ans : ℕ → TurnAnswer) (st : SwitchState) : Except Fault (SwitchState × List SwitchEvent) := do
  let (nets, ret) ← snsdCfgNetInfo pton s LldpRunInfo.zero .sw sys pollCount st.nets
  if ret ≠ 0 then return ({ st with nets := nets }, [])
  let needCheck := switchNeedCheckLldp st.count pollCount
  let r := switchPortLoop needCheck pollCount ans st.table nets
  return (⟨r.2.1, r.1, if needCheck then pollCount else st.count⟩, r.2.2)

end NvmeSnsd.Switch
