import NvmeSnsd.Cfg.Infos
import NvmeSnsd.Cfg.Section

/-! The options that a section may set, their checks and their defaults. -/
namespace NvmeSnsd.Cfg
open Lib

def EPERM : ℤ := 1
def ENXIO : ℤ := 6
def SNSD_NQN_MAX_LEN : ℕ := 256
def SNSD_SECTION_BASE_NAME : Bytes := ascii "BASE"
def SNSD_SECTION_SW_NAME : Bytes := ascii "SW"
def SNSD_SECTION_DC_NAME : Bytes := ascii "DC"
def SNSD_SW_ANY : Bytes := ascii "any"

/-- `enum snsd_necessary` -/
inductive SnsdNecessary
  | must
  | optional
  | butt
  deriving DecidableEq, Repr

/-- The functions that `check_validity` points at; `none` is a null pointer. -/
inductive CheckValidity
  | none
  | unsupport
  | ip
  | para
  | noarg
  | hostnqn
  | baseHostnqn
  | protocol
  deriving DecidableEq, Repr

/-- Where an option goes, with its default: a string (`"invalid"` throughout) or
an `int`. -/
inductive OptionField
  | str (f : StrField)
  | int (f : IntField) (default : Int32)
  deriving DecidableEq, Repr

/-- `struct snsd_cfg_commandline`; `option` is without its leading `--`, and the
length is the size of the field. -/
structure Commandline where
  option : Bytes
  field : OptionField
  swNecessary : SnsdNecessary
  dcNecessary : SnsdNecessary
  checkValidity : CheckValidity
  drvOption : Bytes
  deriving DecidableEq

/-- An option that no section needs. -/
def optionalOption (option : String) (field : OptionField) (check : CheckValidity)
    (drvOption : String) : Commandline :=
  ⟨ascii option, field, .optional, .optional, check, ascii drvOption⟩

def commandLineOptions : List Commandline :=
  [optionalOption "nqn" (.str .nqn) .unsupport "nqn",
    ⟨ascii "traddr", .str .traddr, .optional, .must, .ip, ascii "traddr"⟩,
    optionalOption "trsvcid" (.str .trsvcid) .para "trsvcid",
    ⟨ascii "host-traddr", .str .hostTraddr, .must, .must, .ip, ascii "host_traddr"⟩,
    optionalOption "hostnqn" (.str .hostnqn) .hostnqn "hostnqn",
    optionalOption "hostid" (.str .hostid) .para "hostid",
    optionalOption "nr-io-queues" (.int .nrIoQueues (-1)) .para "nr_io_queues",
    optionalOption "nr-write-queues" (.int .nrWriteQueues (-1)) .para "nr_write_queues",
    optionalOption "nr-poll-queues" (.int .nrPollQueues (-1)) .para "nr_poll_queues",
    optionalOption "queue-size" (.int .queueSize (-1)) .para "queue_size",
    optionalOption "keep-alive-tmo" (.int .keepAliveTmo (-1)) .para "keep_alive_tmo",
    optionalOption "reconnect-delay" (.int .reconnectDelay (-1)) .para "reconnect_delay",
    optionalOption "ctrl-loss-tmo" (.int .ctrlLossTmo (-1)) .para "ctrl_loss_tmo",
    optionalOption "duplicate_connect" (.int .duplicateConnect (-1)) .noarg "duplicate_connect",
    optionalOption "disable_sqflow" (.int .disableSqflow (-1)) .noarg "disable_sqflow",
    optionalOption "hdr_digest" (.int .hdrDigest (-1)) .unsupport "hdr_digest",
    optionalOption "data_digest" (.int .dataDigest (-1)) .unsupport "data_digest",
    ⟨ascii "protocol", .int .protocol 0, .must, .must, .protocol, ascii "protocol"⟩,
    optionalOption "protol_role" (.int .protolRole 0) .unsupport "protol_role"]

def baseCommandLineOptions : List Commandline :=
  [⟨ascii "restrain-time", .int .restrainTime 0, .butt, .butt, .none, ascii "restrain_time"⟩,
    optionalOption "trsvcid" (.str .trsvcid) .para "trsvcid",
    optionalOption "hostnqn" (.str .hostnqn) .baseHostnqn "hostnqn",
    optionalOption "hostid" (.str .hostid) .para "hostid",
    optionalOption "nr-io-queues" (.int .nrIoQueues (-1)) .para "nr_io_queues",
    optionalOption "nr-write-queues" (.int .nrWriteQueues (-1)) .para "nr_write_queues",
    optionalOption "nr-poll-queues" (.int .nrPollQueues (-1)) .para "nr_poll_queues",
    optionalOption "queue-size" (.int .queueSize (-1)) .para "queue_size",
    optionalOption "keep-alive-tmo" (.int .keepAliveTmo (-1)) .para "keep_alive_tmo",
    optionalOption "reconnect-delay" (.int .reconnectDelay (-1)) .para "reconnect_delay",
    optionalOption "ctrl-loss-tmo" (.int .ctrlLossTmo (-1)) .para "ctrl_loss_tmo",
    optionalOption "duplicate_connect" (.int .duplicateConnect (-1)) .noarg "duplicate_connect",
    optionalOption "disable_sqflow" (.int .disableSqflow (-1)) .noarg "disable_sqflow",
    optionalOption "hdr_digest" (.int .hdrDigest (-1)) .unsupport "hdr_digest",
    optionalOption "data_digest" (.int .dataDigest (-1)) .unsupport "data_digest",
    optionalOption "protocol" (.int .protocol 0) .unsupport "protocol",
    optionalOption "protol_role" (.int .protolRole 0) .unsupport "protol_role"]

/-- What the parser asks of the outside: the kernel probe of an option with a
value (`snsd_nvme_para_validity_test`) and of one without, and whether
`inet_pton` takes an address of a family. -/
structure Outside where
  paraValidityTest : Bytes → Bytes → Bool
  noargParaValidityTest : Bytes → Bytes → Bool
  inetPton : ℕ → Bytes → Bool

/-- The globals of the module. -/
structure CfgState where
  cfg : CfgFields
  baseCfg : CfgFields
  snsdHostnqn : Mem SNSD_NQN_MAX_LEN
  swInfoList : List CfgInfos
  dcInfoList : List CfgInfos
  anyflag : SnsdAny
  anyProtocol : Int32

/-- A system that accepts every option, and every address but the mark of an
unset one. -/
def acceptAll : Outside where
  paraValidityTest _ _ := true
  noargParaValidityTest _ _ := true
  inetPton _ address := address != invalid

/-- The globals as the program starts. -/
def clearState : CfgState := ⟨CfgFields.zero, CfgFields.zero, Mem.zero _, [], [], .butt, 0⟩

/-- One entry of `snsd_init_cfg_with_default`. -/
def initOption (c : CfgFields) : OptionField → CfgFields
  | .str f => c.setStr f (CStr.clip f.size_pos invalid)
  | .int f default => c.setInt f default

/-- `snsd_init_cfg_with_default` on a cleared record. -/
def snsdInitCfgWithDefault (cmdline : List Commandline) : CfgFields :=
  cmdline.foldl (fun c o => initOption c o.field) CfgFields.zero

def snsdInitCfg (s : CfgState) : CfgState :=
  { s with cfg := snsdInitCfgWithDefault commandLineOptions }

def snsdInitBaseCfg (s : CfgState) : CfgState :=
  { s with baseCfg := snsdInitCfgWithDefault baseCommandLineOptions }

/-- `prot_match` -/
def protMatch : List (Bytes × ℕ) :=
  [(ascii "roce", SNSD_PROTOCOL_ROCE),
    (ascii "tcp", SNSD_PROTOCOL_TCP),
    (ascii "iscsi", SNSD_PROTOCOL_ISCSI)]

def snsdCheckIpValidity (o : Outside) (ip : Bytes) : Bool :=
  ip == SNSD_SW_ANY || o.inetPton AF_INET ip || o.inetPton AF_INET6 ip

/-- `snsd_check_protocol_validity`: it leaves the number in place of the name. -/
def snsdCheckProtocolValidity (val : Bytes) : Option Bytes :=
  (protMatch.lookup val).map decimal

/-- `check_validity(drv_option, value)`: the state and the value after it, or none
when it is `false`. -/
def checkValidity (o : Outside) (s : CfgState) (check : CheckValidity) (drvOption value : Bytes) :
    Except Fault (Option (CfgState × Bytes)) :=
  match check with
  | .none => .ok (some (s, value))
  | .unsupport => .ok none
  | .ip => .ok (if snsdCheckIpValidity o value then some (s, value) else none)
  | .para => .ok (if o.paraValidityTest drvOption value then some (s, value) else none)
  | .noarg => .ok (if o.noargParaValidityTest drvOption value then some (s, value) else none)
  | .hostnqn => .ok (if value.length ≥ SNSD_NQN_MAX_LEN then none else some (s, value))
  | .baseHostnqn =>
    if value.length ≥ SNSD_NQN_MAX_LEN then .ok none
    else do
      -- the terminator is not copied
      let hostnqn ← s.snsdHostnqn.store 0 value
      return some ({ s with snsdHostnqn := hostnqn }, value)
  | .protocol => .ok ((snsdCheckProtocolValidity value).map fun v => (s, v))

/-- `(int)atoi(s)`: what is out of the range of `long` is cut to it. -/
def atoi (s : Bytes) : Int32 :=
  let t := s.dropWhile isSpace
  let neg := t.head? = some 45
  let t := if t.head? = some 45 ∨ t.head? = some 43 then t.tail else t
  let digits := t.takeWhile fun b => 48 ≤ b && b ≤ 57
  let n : ℤ := digits.foldl (fun n b => n*10+(b.toNat-48)) 0
  Int32.ofInt (max (-2^63) (min (2^63-1) (if neg then -n else n)))

/-- The records that the two tables point into. -/
inductive Record
  | cfg
  | base
  deriving DecidableEq, Repr

def CfgState.record (s : CfgState) : Record → CfgFields
  | .cfg => s.cfg
  | .base => s.baseCfg

def CfgState.setRecord (s : CfgState) (r : Record) (c : CfgFields) : CfgState :=
  match r with
  | .cfg => { s with cfg := c }
  | .base => { s with baseCfg := c }

/-- `snsd_check_and_save`, with the state as it is left. -/
def snsdCheckAndSave (o : Outside) (r : Record) (c : Commandline) (value : Bytes) (s : CfgState) :
    Except Fault (CfgState × ℤ) := do
  match ← checkValidity o s c.checkValidity c.drvOption value with
  | none => return (s, -EPERM)
  | some (s, value) =>
    match c.field with
    | .str f =>
      if value.length ≥ f.size then return (s, -ENOMEM)
      return (s.setRecord r ((s.record r).setStr f (CStr.clip f.size_pos value)), 0)
    | .int f _ => return (s.setRecord r ((s.record r).setInt f (atoi value)), 0)

/-- The table and the record of a section. -/
def sectionTable (sectionName : Bytes) : Record × List Commandline :=
  if sectionName = SNSD_SECTION_BASE_NAME then (.base, baseCommandLineOptions)
  else (.cfg, commandLineOptions)

/-- A name with its leading `--` or without. -/
def Commandline.named (c : Commandline) (name : Bytes) : Bool :=
  name == ascii "--" ++ c.option || name == c.option

def snsdSaveOneItem (o : Outside) (sectionName name value : Bytes) (s : CfgState) :
    Except Fault (CfgState × ℤ) :=
  let (r, cmdline) := sectionTable sectionName
  match cmdline.find? (·.named name) with
  | some c => snsdCheckAndSave o r c value s
  | none => .ok (s, - ENXIO)

/-- Whether a record has a field at its default. -/
def CfgFields.atDefault (c : CfgFields) : OptionField → Bool
  | .str f => (c.str f).text == invalid
  | .int f default => c.int f == default

def Commandline.necessary (c : Commandline) (sectionName : Bytes) : SnsdNecessary :=
  if sectionName = SNSD_SECTION_SW_NAME then c.swNecessary else c.dcNecessary

def snsdCheckNecessary (sectionName : Bytes) (s : CfgState) : Bool :=
  sectionName == SNSD_SECTION_BASE_NAME || commandLineOptions.all fun c =>
    c.necessary sectionName != .must || !s.cfg.atDefault c.field

/-- `snsd_add_one_cfg` -/
def snsdAddOneCfg (sectionName : Bytes) (s : CfgState) : CfgState × ℤ :=
  if !snsdCheckNecessary sectionName s then (s, -ENOMEM)
  else if sectionName = SNSD_SECTION_SW_NAME then
    let config : CfgInfos := { s.cfg with mode := .sw }
    let s := if (config.str .hostTraddr).text.take SNSD_SW_ANY.length = SNSD_SW_ANY then
      { s with anyflag := .yes, anyProtocol := config.int .protocol } else s
    ({ s with swInfoList := s.swInfoList ++ [config] }, 0)
  else if sectionName = SNSD_SECTION_DC_NAME then
    ({ s with dcInfoList := s.dcInfoList ++ [{ s.cfg with mode := .dc }] }, 0)
  else if sectionName = SNSD_SECTION_BASE_NAME then (s, 0)
  else (s, -EPERM)

end NvmeSnsd.Cfg
