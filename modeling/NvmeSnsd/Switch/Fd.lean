import NvmeSnsd.Lib.Slots
import NvmeSnsd.Mgt.NetInfo

/-! The table of sockets that the ports of the switch share: one place for a
physical interface, with the references to it and the indices that tell its ports
apart. -/
namespace NvmeSnsd.Switch
open Lib Cfg Mgt

def LLDP_OLD_TIME : ℕ := 120
def LLDP_WAIT_OLD_TIME : ℕ := 10
def LLDP_INTERVAL_CLOCK : ℕ := 30

/-- The bits of `index_map`. -/
def indexBits : ℕ := 64

/-- `struct switch_port_fd` -/
structure SwitchPortFd where
  ifindex : ℤ
  refs : ℤ
  fd : ℤ
  indexMap : BitVec indexBits
  oldTime : ℕ
  deriving DecidableEq

/-- `switch_fd_init` -/
def switchFdInit : SwitchPortFd := ⟨-1, 0, -1, 0, 0⟩

/-- `g_port_fd` -/
abbrev FdTable := Vector SwitchPortFd MAX_PHY_PORT

/-- `switch_port_init` -/
def switchPortInit : FdTable := Vector.replicate MAX_PHY_PORT switchFdInit

/-- `switch_get_index`: the first bit that is clear is set; 0 if there is none. -/
def switchGetIndex (indexMap : BitVec indexBits) : BitVec indexBits × ℕ :=
  match (List.range indexBits).find? fun i => !indexMap.getLsbD i with
  | some i => (indexMap ||| BitVec.twoPow indexBits i, i+1)
  | none => (indexMap, 0)

/-- `switch_put_index` -/
def switchPutIndex (indexMap : BitVec indexBits) (index : ℕ) : BitVec indexBits :=
  if index = 0 then indexMap else indexMap &&& ~~~BitVec.twoPow indexBits (index-1)

/-- What the calls made for a place of the table answer: the clock, read at each
place of the search and when the place is given back, the new socket, and whether
the address was added to it. -/
structure FdAnswer where
  clock : Fin MAX_PHY_PORT → ℕ
  putTime : ℕ
  sock : ℤ
  updated : Bool

/-- A place that another interface may take. -/
def isFree (now : ℕ) (fd : SwitchPortFd) : Bool :=
  fd.ifindex < 0 || (fd.refs ≤ 0 && fd.oldTime < now)

/-- `switch_get_fd_info`: the place with the index that it gives, which is 0 for a
caller without one. -/
def switchGetFdInfo (clock : Fin MAX_PHY_PORT → ℕ) (table : FdTable) (ifindex : ℤ)
    (withIndex : Bool) : FdTable × Option (Fin MAX_PHY_PORT × ℕ) :=
  match firstIdx table (·.ifindex == ifindex) with
  | some i =>
    let fd := table.get i
    if withIndex then
      let r := switchGetIndex fd.indexMap
      if r.2 = 0 then (table, none)
      else (setAt table i { fd with indexMap := r.1, refs := fd.refs+1 }, some (i, r.2))
    else (setAt table i { fd with refs := fd.refs+1 }, some (i, 0))
  | none =>
    match Fin.find? fun i => isFree (clock i) (table.get i) with
    | none => (table, none)
    | some i =>
      let fd := { table.get i with refs := 1, ifindex := ifindex }
      -- without an index the old map stays
      if withIndex then (setAt table i { fd with indexMap := 1 }, some (i, 1))
      else (setAt table i fd, some (i, 0))

/-- `switch_put_fd_info` -/
def switchPutFdInfo (now : ℕ) (table : FdTable) (i : Fin MAX_PHY_PORT) (index : ℕ) : FdTable :=
  let fd := table.get i
  setAt table i { fd with
    refs := fd.refs-1
    indexMap := switchPutIndex fd.indexMap index
    fd := if fd.refs-1 ≤ 0 then -1 else fd.fd
    oldTime := now+LLDP_OLD_TIME+LLDP_WAIT_OLD_TIME }

/-- `switch_get_fd_data` -/
def switchGetFdData (ans : FdAnswer) (table : FdTable) (ifindex : ℤ) (withIndex : Bool) :
    FdTable × Option (Fin MAX_PHY_PORT × ℕ) :=
  match switchGetFdInfo ans.clock table ifindex withIndex with
  | (table, none) => (table, none)
  | (table, some (i, index)) =>
    if (table.get i).fd < 0 ∧ ans.sock < 0 then
      (switchPutFdInfo ans.putTime table i index, none)
    else
      let table :=
        if (table.get i).fd < 0 then setAt table i { table.get i with fd := ans.sock } else table
      if ans.updated then (table, some (i, index))
      else (switchPutFdInfo ans.putTime table i index, none)

theorem maxPhyPort_pos : 0 < MAX_PHY_PORT := by decide

/-- The place of a slave; its index comes from the table. -/
def slotOf (fdIndex : ℕ) : Fin MAX_PHY_PORT :=
  ⟨fdIndex%MAX_PHY_PORT, Nat.mod_lt _ maxPhyPort_pos⟩

/-- `switch_free_slave_fd`, on the table; the flag of the slave is cleared too. -/
def switchFreeSlaveFd (now : ℕ) (table : FdTable) (slave : SlaveInfo) : FdTable :=
  switchPutFdInfo now table (slotOf slave.fdIndex) 0

attribute [local irreducible] switchGetFdData switchPutFdInfo

/-- The walk of `switch_get_bonding_fd` over the slaves; `ans` has the answers for
each of them. Slaves marked as deleted leave the list, and the first one without
a socket that gets none ends the walk. -/
def switchBondingWalk : (ℕ → FdAnswer) → FdTable → List SlaveInfo → FdTable × List SlaveInfo × Bool
  | _, table, [] => (table, [], true)
  | ans, table, slave :: rest =>
    if slave.deleted then
      let table :=
        if slave.fdValid then switchFreeSlaveFd (ans 0).putTime table slave else table
      switchBondingWalk (fun n => ans (n+1)) table rest
    else if slave.fdValid then
      let r := switchBondingWalk (fun n => ans (n+1)) table rest
      (r.1, slave :: r.2.1, r.2.2)
    else
      match switchGetFdData (ans 0) table slave.slaveIfindex false with
      | (table, none) => (table, slave :: rest, false)
      | (table, some (i, _)) =>
        let slave := { slave with fdIndex := i, fd := (table.get i).fd, fdValid := true }
        let r := switchBondingWalk (fun n => ans (n+1)) table rest
        (r.1, slave :: r.2.1, r.2.2)

theorem bondingWalk_nil (ans : ℕ → FdAnswer) (table : FdTable) :
    switchBondingWalk ans table [] = (table, [], true) := by
  rw [switchBondingWalk]

/-- `switch_get_bonding_fd`; the count goes down by one for each slave that leaves. -/
def switchGetBondingFd (ans : ℕ → FdAnswer) (table : FdTable) (bonding : BondingInfo) :
    FdTable × BondingInfo × ℤ :=
  let r := switchBondingWalk ans table bonding.slave
  let bonding := { bonding with
    slave := r.2.1
    slavesCount := bonding.slavesCount-(bonding.slave.length-r.2.1.length : ℕ) }
  if r.2.2 then (r.1, { bonding with change := false }, 0)
  else (r.1, bonding, -EAGAIN)

end NvmeSnsd.Switch
