import NvmeSnsd.Snsd
import NvmeSnsd.Lib.Text

/-! The records that the configuration file fills in. -/
namespace NvmeSnsd.Cfg
open Lib

/-- The string fields of `struct snsd_cfg_infos` and `struct snsd_base_cfg`. -/
inductive StrField
  | nqn
  | traddr
  | trsvcid
  | hostTraddr
  | hostnqn
  | hostid
  deriving DecidableEq, Repr

/-- The size of the array. -/
def StrField.size : StrField → ℕ
  | .nqn => 256
  | .traddr => 65
  | .trsvcid => 20
  | .hostTraddr => 65
  | .hostnqn => 256
  | .hostid => 37

/-- The `int` fields. -/
inductive IntField
  | restrainTime
  | nrIoQueues
  | nrWriteQueues
  | nrPollQueues
  | queueSize
  | keepAliveTmo
  | reconnectDelay
  | ctrlLossTmo
  | duplicateConnect
  | disableSqflow
  | hdrDigest
  | dataDigest
  | protocol
  | protolRole
  deriving DecidableEq, Repr

/-- The option fields of either record, by field. A field that one of the two
lacks has no option there and stays as `memset` left it. -/
structure CfgFields where
  str : (f : StrField) → CStr f.size
  int : IntField → Int32

theorem StrField.size_pos (f : StrField) : 0 < f.size := by
  cases f <;> decide

/-- What `memset` leaves. -/
def CfgFields.zero : CfgFields where
  str f := CStr.empty f.size_pos
  int _ := 0

def CfgFields.setStr (c : CfgFields) (f : StrField) (v : CStr f.size) : CfgFields :=
  { c with str := Function.update c.str f v }

def CfgFields.setInt (c : CfgFields) (f : IntField) (v : Int32) : CfgFields :=
  { c with int := Function.update c.int f v }

@[simp] theorem CfgFields.setStr_self (c : CfgFields) (f : StrField) (v : CStr f.size) :
    (c.setStr f v).str f = v := by
  rw [setStr]
  exact Function.update_self f v c.str

@[simp] theorem CfgFields.setInt_self (c : CfgFields) (f : IntField) (v : Int32) :
    (c.setInt f v).int f = v := by
  rw [setInt]
  exact Function.update_self f v c.int

/-- The mark of a string option that is not set. -/
def invalid : Bytes := ascii "invalid"

/-- `enum SNSD_MODE_E` -/
inductive SnsdMode
  | sw
  | dc
  deriving DecidableEq, Repr

/-- `struct snsd_cfg_infos` -/
structure CfgInfos extends CfgFields where
  mode : SnsdMode

/-- `enum SNSD_ANY_E` -/
inductive SnsdAny
  | no
  | yes
  | butt
  deriving DecidableEq, Repr

end NvmeSnsd.Cfg
