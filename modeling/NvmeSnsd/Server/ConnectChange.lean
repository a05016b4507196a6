import NvmeSnsd.Lib.Text
import NvmeSnsd.Server.Pool

/-! From a dispatched record to a request of the connection layer. -/
namespace NvmeSnsd.Server
open Lib

def snsdNqnMaxLen : ℕ := 256

/-- `enum nt_msg_notify_reason`, as far as it is looked at. -/
def notifyReasonChangeZone : ℕ := 4
def notifyReasonChangeIp : ℕ := 5
def notifyReasonLldpAgeOut : ℕ := 6

/-- `SNSD_MODE_SW` -/
def snsdModeSw : ℕ := 0

/-- `SNSD_DISCONNECT_FORCEDLY` -/
def snsdDisconnectForcedly : ℕ := 1

structure SnsdConnectParam where
  protocol : ℕ
  portid : ℕ
  family : ℕ
  traddr : Mem 16
  hostTraddr : Mem 16
  subsysnqn : Mem 256
  mode : ℕ
  actionFlag : ℕ
  deriving DecidableEq

/-- The request that is made. -/
inductive ConnectCall
  | snsdConnect (param : SnsdConnectParam)
  | snsdDisconnect (param : SnsdConnectParam)
  deriving DecidableEq

namespace NtMsg

/-- `nt_reason_tlv.nt_reason` -/
def ntReason (m : NtMsg) : ℕ := leVal (m.ntReasonTlv.read 3 4)

/-- `ad_info_tlv.ad_info.proto_type` -/
def protoType (m : NtMsg) : ℕ := leVal (m.adInfoTlv.read 4 1)

/-- `ad_info_tlv.ad_info.proto_port` -/
def protoPort (m : NtMsg) : ℕ := leVal (m.adInfoTlv.read 7 2)

/-- `ad_info_tlv.ad_info.nqn` -/
def nqn (m : NtMsg) : Ptr := ⟨m.adInfoTlv.bytes, 10⟩

end NtMsg

/-- The host side is the destination of the notification. -/
def snsdConnectChange (msg : NtMsg) (type : ℕ) : Except Fault ConnectCall := do
  let len := if msg.family = AF_INET then ipv4AddrLength else ipv6AddrLength
  let dst := if msg.family = AF_INET then 10 else 22
  let hostTraddr ← (Mem.zero 16).memcpy 0 ⟨msg.ipTlv.bytes, dst⟩ len
  let traddr ← (Mem.zero 16).memcpy 0 ⟨msg.ipTlv.bytes, sizeofTlInfo⟩ len
  let subsysnqn ← (Mem.zero 256).strncpy 0 msg.nqn snsdNqnMaxLen
  let subsysnqn ← subsysnqn.store (snsdNqnMaxLen-1) [0]
  let param : SnsdConnectParam :=
    { protocol := msg.protoType
      portid := msg.protoPort
      family := msg.family
      traddr := traddr
      hostTraddr := hostTraddr
      subsysnqn := subsysnqn
      mode := snsdModeSw
      actionFlag := 0 }
  if type = notifyHostActive then return .snsdConnect param
  else if msg.ntReason = notifyReasonChangeZone ∨ msg.ntReason = notifyReasonChangeIp ∨
      msg.ntReason = notifyReasonLldpAgeOut then
    return .snsdDisconnect { param with actionFlag := param.actionFlag ||| snsdDisconnectForcedly }
  else return .snsdDisconnect param

/-- What the handler thread asks for when it makes a call. -/
def DispatchCall.perform : DispatchCall → Except Fault (Option ConnectCall)
  | .connectChange msg type => do return some (← snsdConnectChange msg type)
  | .invalid _ => .ok none

/-! What the request says. -/

/-- An address of the record, padded with zeros. -/
def NtMsg.padded (m : NtMsg) (off : ℕ) : Mem 16 :=
  (Mem.zero 16).write 0 (m.ipTlv.read off (if m.family = AF_INET then 4 else 16))

def NtMsg.host (m : NtMsg) : Mem 16 := m.padded (if m.family = AF_INET then 10 else 22)

def NtMsg.target (m : NtMsg) : Mem 16 := m.padded 3

def NtMsg.forced (m : NtMsg) : Bool :=
  m.ntReason == notifyReasonChangeZone || m.ntReason == notifyReasonChangeIp ||
    m.ntReason == notifyReasonLldpAgeOut

section Spec
variable {msg : NtMsg}

/-- Every copy into the parameters fits, whatever the record holds. -/
theorem connectChange_spec (msg : NtMsg) (type : ℕ) :
    ∃ param : SnsdConnectParam, param.hostTraddr = msg.host ∧ param.traddr = msg.target ∧
      param.actionFlag = 0 ∧
      snsdConnectChange msg type =
        .ok (if type = notifyHostActive then .snsdConnect param
          else .snsdDisconnect
            { param with actionFlag := if msg.forced then snsdDisconnectForcedly else 0 }) := by
  have hcopy (off : ℕ) (hoff : off+16 ≤ 38) :
      (Mem.zero 16).memcpy 0 ⟨msg.ipTlv.bytes, off⟩
        (if msg.family = AF_INET then ipv4AddrLength else ipv6AddrLength) = .ok (msg.padded off) := by
    have hsize := msg.ipTlv.size
    rw [Mem.memcpy_ok]
    · rfl
    · dsimp only
      split_ifs <;> simp only [ipv4AddrLength, ipv6AddrLength] <;> omega
    · split_ifs <;> decide
  have hhost : msg.host = msg.padded (if msg.family = AF_INET then 10 else 22) := rfl
  have hnqn : snsdNqnMaxLen ≤ msg.nqn.rest.length := by
    rw [Ptr.rest_length]
    simp only [NtMsg.nqn, msg.adInfoTlv.size]
    decide
  obtain ⟨nqn, hcopied⟩ := Mem.strncpy_ok (m := Mem.zero 256) (o := 0) hnqn (by decide)
  have hend : nqn.store (snsdNqnMaxLen-1) [0] = .ok (nqn.write (snsdNqnMaxLen-1) [0]) :=
    Mem.store_ok (by decide)
  refine ⟨⟨msg.protoType, msg.protoPort, msg.family, msg.target, msg.host,
    nqn.write (snsdNqnMaxLen-1) [0], snsdModeSw, 0⟩, rfl, rfl, rfl, ?_⟩
  have hdst := hcopy (if msg.family = AF_INET then 10 else 22) (by split_ifs <;> omega)
  simp only [snsdConnectChange, hdst, hcopy sizeofTlInfo (by decide), ← hhost, ok_bind, hcopied,
    hend]
  by_cases htype : type = notifyHostActive
  · rw [if_pos htype, if_pos htype]
    rfl
  · rw [if_neg htype, if_neg htype]
    by_cases hforced : msg.forced = true
    · rw [if_pos hforced, if_pos]
      · rfl
      · simpa only [NtMsg.forced, Bool.or_eq_true, beq_iff_eq, or_assoc] using hforced
    · rw [if_neg hforced, if_neg]
      · rfl
      · simpa only [NtMsg.forced, Bool.or_eq_true, beq_iff_eq, or_assoc] using hforced

end Spec

end NvmeSnsd.Server
