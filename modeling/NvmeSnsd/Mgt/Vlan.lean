import Mathlib.Data.List.DropRight
import NvmeSnsd.Mgt.Port
import NvmeSnsd.Cfg.Parse

/-! The VLAN of a port and the device below it, from the text of
`/proc/net/vlan/config`. -/
namespace NvmeSnsd.Mgt
open Lib Cfg

/-- The string that starts where `b` does. -/
def cstr (b : Bytes) : Bytes := b.takeWhile (· != 0)

def isDigit (b : UInt8) : Bool := 48 ≤ b && b ≤ 57

/-- `cur[index] != '\r' && cur[index] != '\n'` -/
def inRow (b : UInt8) : Bool := b != 13 && b != 10

/-- `strstr`: where `needle` starts first. -/
def strstr (hay needle : Bytes) : Option ℕ :=
  (List.range ((cstr hay).length + 1)).find? fun i => needle.isPrefixOf ((cstr hay).drop i)

/-- `strncmp(a, b, n) == 0` -/
def strncmpEq (a b : Bytes) (n : ℕ) : Bool := (cstr a).take n == (cstr b).take n

/-- `snsd_match_vlan`; `cur` is what follows in the text. -/
def snsdMatchVlan (cur itemName : Bytes) : Bool :=
  let column := cur.takeWhile fun b => inRow b && b != 124
  if column.length < SNSD_CFG_NAME_MAX_LEN ∧ cur[column.length]? = some 124 then
    let trimmed := column.rdropWhile isBlank
    strncmpEq trimmed itemName trimmed.length
  else false

/-- `snsd_find_vlan_start`, from position `next` on; an empty name would make it
search the same place for ever. -/
def snsdFindVlanStart (itemName vlan : Bytes) : ℕ → ℕ → Except Fault (Option ℕ)
  | 0, _ => .error .fuel
  | fuel+1, next =>
    if next < vlan.length then
      match strstr (vlan.drop next) itemName with
      | none => .ok none
      | some off =>
        if snsdMatchVlan (vlan.drop (next+off)) itemName then .ok (some (next+off))
        else snsdFindVlanStart itemName vlan fuel (next+off+itemName.length)
    else .ok none

/-- `snsd_fill_vlan`: the VLAN, and the position behind its digits. -/
def snsdFillVlan (name vlan : Bytes) : Except Fault (Int16 × ℕ) := do
  match ← snsdFindVlanStart (cstr name) vlan (vlan.length+1) 0 with
  | none => return (SNSD_INVALID_VLAN, 0)
  | some offset =>
    let row := (vlan.drop offset).takeWhile inRow
    let column := row.takeWhile (· != 124)
    if column.length = row.length then return (SNSD_INVALID_VLAN, 0)
    -- the search for digits does not stop at the end of the row
    let rest := vlan.drop (offset+column.length)
    let skipped := rest.takeWhile (!isDigit ·)
    let digits := ((rest.drop skipped.length).takeWhile isDigit).take SNSD_CFG_NAME_MAX_LEN
    if digits = [] then return (SNSD_INVALID_VLAN, 0)
    return (Int16.ofInt (atoi digits).toInt, offset+column.length+skipped.length+digits.length)

/-- `snsd_get_phy_ifname`, from `pos` on. -/
def snsdGetPhyIfname (vlan : Bytes) (pos : ℕ) : Option Bytes :=
  let row := (vlan.drop pos).takeWhile inRow
  let column := row.takeWhile (· != 124)
  if column.length = row.length then none
  else
    let rest := vlan.drop (pos+column.length+1)
    let name := ((rest.dropWhile isBlank).takeWhile (!isSpace ·)).take IFNAMSIZ
    if name = [] then none else some name

/-! The header of the file and two rows. -/

example :
    let vlan := ascii "Dev | ID\nName-Type: X\neth0.5 | 5 | eth0\neth0.50 | 50 | eth1\n"
    ((snsdFillVlan (ascii "eth0.5") vlan).toOption.map fun r => (r.1, snsdGetPhyIfname vlan r.2)) =
        some (5, some (ascii "eth0")) ∧
      ((snsdFillVlan (ascii "eth0.50") vlan).toOption.map fun r =>
          (r.1, snsdGetPhyIfname vlan r.2)) = some (50, some (ascii "eth1")) ∧
      (snsdFillVlan (ascii "eth1") vlan).toOption = some (SNSD_INVALID_VLAN, 0) := by
  decide +kernel

end NvmeSnsd.Mgt
