import NvmeSnsd.ConnNvme.Ctx
import NvmeSnsd.Cfg.Infos

/-! The argument string that a controller is created with. -/
namespace NvmeSnsd.ConnNvme
open Lib Cfg

def SNSD_BUF_SIZE : ℕ := 1024

def EINVAL : ℤ := 22

/-- The buffer being filled: where `argstr` is in it and the length left over.
`calls` is history, the room that each `snprintf` was given and the length that
it returned. -/
structure ArgBuf where
  buf : Mem SNSD_BUF_SIZE
  argstr : ℕ
  maxLen : ℤ
  calls : List (ℤ × ℕ)

/-- `snprintf(argstr, max_len, ..)` of what comes out as `text`: the room is a
`size_t`, and the length of the whole text is returned. -/
def ArgBuf.snprintf (a : ArgBuf) (text : Bytes) : Except Fault (ArgBuf × ℤ) := do
  let room := (a.maxLen%2^64).toNat
  let a := { a with calls := a.calls ++ [(a.maxLen, text.length)] }
  if room = 0 then return (a, text.length)
  let buf ← a.buf.store a.argstr (text.take (room-1) ++ [0])
  return ({ a with buf := buf }, text.length)

/-- The end of every `snsd_nvme_add_…argument`. -/
def ArgBuf.advance (a : ArgBuf) (len : ℤ) : ArgBuf :=
  { a with argstr := (a.argstr+len).toNat, maxLen := a.maxLen-len }

/-- The common shape of `snsd_nvme_add_…`: print `item`, if there is one, and
move on. -/
def addItem (a : ArgBuf) (item : Option Bytes) : Except Fault (ArgBuf × ℤ) := do
  let (a, len) ← match item with
    | some text => a.snprintf text
    | none => .ok (a, 0)
  if len < 0 then return (a, -EINVAL)
  return (a.advance len, 0)

/-- The value of the entry, or else that of the base. -/
def chosen {α : Type} [DecidableEq α] (unset cfgParaVal baseParaVal : α) : Option α :=
  if cfgParaVal ≠ unset then some cfgParaVal
  else if baseParaVal ≠ unset then some baseParaVal
  else none

def withValue (paraName value : Bytes) : Bytes := 44 :: paraName ++ 61 :: value

def snsdNvmeAddArgument (a : ArgBuf) (cfgParaVal baseParaVal paraName : Bytes) :
    Except Fault (ArgBuf × ℤ) :=
  addItem a ((chosen invalid cfgParaVal baseParaVal).map (withValue paraName))

def snsdNvmeAddIntArgument (a : ArgBuf) (cfgParaVal baseParaVal : Int32) (paraName : Bytes) :
    Except Fault (ArgBuf × ℤ) :=
  addItem a ((chosen (-1) cfgParaVal baseParaVal).map fun i =>
    withValue paraName (signedDecimal i.toInt))

def snsdNvmeAddNoargArgument (a : ArgBuf) (cfgParaVal baseParaVal : Int32) (paraName : Bytes) :
    Except Fault (ArgBuf × ℤ) :=
  addItem a ((chosen (-1) cfgParaVal baseParaVal).map fun _ => 44 :: paraName)

/-- `hostnqn` is what `snsd_get_base_hostnqn` points at. -/
def snsdNvmeAddHostnqn (a : ArgBuf) (cfgHostnqn nameHostnqn hostnqn : Bytes) :
    Except Fault (ArgBuf × ℤ) :=
  addItem a (some (withValue nameHostnqn (if cfgHostnqn ≠ invalid then cfgHostnqn else hostnqn)))

/-- `f1 || f2 || ..`: the first call that fails is the last. -/
def untilFailure : List (ArgBuf → Except Fault (ArgBuf × ℤ)) → ArgBuf → Except Fault (ArgBuf × ℤ)
  | [], a => .ok (a, 0)
  | f :: fs, a => do
    let (a, ret) ← f a
    if ret ≠ 0 then return (a, ret)
    untilFailure fs a

/-- `"traddr=%s,host_traddr=%s,transport=%s,trsvcid=%s,nqn=%s"` -/
def ctrlFormat (ctx : Ctx) : Bytes :=
  ascii "traddr=" ++ ctx.traddr.text ++ ascii ",host_traddr=" ++ ctx.hostTraddr.text ++
    ascii ",transport=" ++ ctx.transport.text ++ ascii ",trsvcid=" ++ ctx.trsvcid.text ++
    ascii ",nqn=" ++ ctx.subsysnqn.text

/-- The calls between the head and the default. -/
def addArguments (cfgInfo baseInfo : CfgFields) (snsdHostnqn : CStr SNSD_NQN_MAX_LEN) :
    List (ArgBuf → Except Fault (ArgBuf × ℤ)) :=
  let str (f : StrField) (name : String) := fun a => snsdNvmeAddArgument a
    (cfgInfo.str f).text (baseInfo.str f).text (ascii name)
  let int (f : IntField) (name : String) := fun a => snsdNvmeAddIntArgument a
    (cfgInfo.int f) (baseInfo.int f) (ascii name)
  let noarg (f : IntField) (name : String) := fun a => snsdNvmeAddNoargArgument a
    (cfgInfo.int f) (baseInfo.int f) (ascii name)
  [fun a => snsdNvmeAddHostnqn a (cfgInfo.str .hostnqn).text (ascii "hostnqn") snsdHostnqn.text,
    str .hostid "hostid",
    int .nrIoQueues "nr_io_queues",
    int .nrWriteQueues "nr_write_queues",
    int .nrPollQueues "nr_poll_queues",
    int .queueSize "queue_size",
    int .keepAliveTmo "keep_alive_tmo",
    int .reconnectDelay "reconnect_delay",
    int .ctrlLossTmo "ctrl_loss_tmo",
    noarg .duplicateConnect "duplicate_connect",
    noarg .disableSqflow "disable_sqflow",
    noarg .hdrDigest "hdr_digest",
    noarg .dataDigest "data_digest"]

/-- `snsd_nvme_fill_arg` on a buffer with anything in it. -/
def snsdNvmeFillArg (argstr : Mem SNSD_BUF_SIZE) (cfgInfo baseInfo : CfgFields)
    (snsdHostnqn : CStr SNSD_NQN_MAX_LEN) (ctx : Ctx) : Except Fault (ArgBuf × Bool) := do
  let (a, len) ← (ArgBuf.mk argstr 0 SNSD_BUF_SIZE []).snprintf (ctrlFormat ctx)
  if len < 0 then return (a, false)
  let (a, ret) ← untilFailure (addArguments cfgInfo baseInfo snsdHostnqn) (a.advance len)
  if ret ≠ 0 then return (a, false)
  -- the search starts at the begin of the buffer, not where `argstr` is now
  let written ← a.buf.cstr 0
  if ascii "ctrl_loss_tmo=" <:+: written then return (a, true)
  let (a, len) ← a.snprintf (ascii ",ctrl_loss_tmo=1800")
  if len < 0 then return (a, false)
  return (a, true)

/-! What the kernel makes of the string. -/

/-- An option: its key, and the value behind the first `=` if it has one. -/
def splitOption (o : Bytes) : Bytes × Option Bytes :=
  (o.takeWhile (· != 61), if 61 ∈ o then some (o.dropWhile (· != 61)).tail else none)

def parseOptions (out : Bytes) : List (Bytes × Option Bytes) := (out.splitOn 44).map splitOption

/-- The values that the string gives to a key. -/
def valuesOf (key : Bytes) (out : Bytes) : List (Option Bytes) :=
  ((parseOptions out).filter (·.1 == key)).map (·.2)

/-- Every key with the value it is to have: none means that it is to be absent,
and the inner none that it is to stand without a value. -/
def wanted (cfgInfo baseInfo : CfgFields) (snsdHostnqn : CStr SNSD_NQN_MAX_LEN) (ctx : Ctx) :
    List (Bytes × Option (Option Bytes)) :=
  let int (f : IntField) := chosen (-1) (cfgInfo.int f) (baseInfo.int f)
  let number (i : Int32) := some (signedDecimal i.toInt)
  [(ascii "traddr", some (some ctx.traddr.text)),
    (ascii "host_traddr", some (some ctx.hostTraddr.text)),
    (ascii "transport", some (some ctx.transport.text)),
    (ascii "trsvcid", some (some ctx.trsvcid.text)),
    (ascii "nqn", some (some ctx.subsysnqn.text)),
    (ascii "hostnqn", some (some (if (cfgInfo.str .hostnqn).text ≠ invalid
      then (cfgInfo.str .hostnqn).text else snsdHostnqn.text))),
    (ascii "hostid",
      (chosen invalid (cfgInfo.str .hostid).text (baseInfo.str .hostid).text).map some),
    (ascii "nr_io_queues", (int .nrIoQueues).map number),
    (ascii "nr_write_queues", (int .nrWriteQueues).map number),
    (ascii "nr_poll_queues", (int .nrPollQueues).map number),
    (ascii "queue_size", (int .queueSize).map number),
    (ascii "keep_alive_tmo", (int .keepAliveTmo).map number),
    (ascii "reconnect_delay", (int .reconnectDelay).map number),
    (ascii "ctrl_loss_tmo", some (number ((int .ctrlLossTmo).getD 1800))),
    (ascii "duplicate_connect", (int .duplicateConnect).map fun _ => none),
    (ascii "disable_sqflow", (int .disableSqflow).map fun _ => none),
    (ascii "hdr_digest", (int .hdrDigest).map fun _ => none),
    (ascii "data_digest", (int .dataDigest).map fun _ => none)]

end NvmeSnsd.ConnNvme
