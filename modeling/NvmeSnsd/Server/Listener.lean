import NvmeSnsd.Lib.Slots
import NvmeSnsd.Server.Ack

/-! The table of listeners: a slot for each listening socket, with the host
addresses it answers for and the monitor that drops frames under attack. -/
namespace NvmeSnsd.Server
open Lib

/-- `SNSD_MAX_LISTENER` -/
abbrev snsdMaxListener : ℕ := 64

def EPERM : ℤ := 1
def ENXIO : ℤ := 6
def ENODEV : ℤ := 19

/-! The monitor's times are in milliseconds. -/

def snsdServerMonitorPeriod : ℕ := 500
def snsdServerFloodAttackThreshold : ℕ := 500
def snsdServerRevoerMs : ℕ := 10*1000
def snsdServerRecoveryCycles : ℕ := snsdServerRevoerMs/snsdServerMonitorPeriod

def snsdDetectPeriod : ℤ := snsdServerMonitorPeriod
def snsdAttackThreshold : ℕ := snsdServerFloodAttackThreshold
def snsdAttackRecoveryPeriod : ℕ := snsdServerRecoveryCycles

/-- `struct snsd_port_related_info`, less the name, which is only printed. -/
structure SnsdPortRelatedInfo where
  family : ℕ
  ip : Mem 16
  mac : Mem 6
  ifindex : ℤ

/-- The fields of `struct sockaddr_ll` that are set; `sll_addr` is its first
`MAC_LENGTH` bytes. -/
structure SockaddrLl where
  sllFamily : ℕ
  sllIfindex : ℤ
  sllProtocol : ℕ
  sllAddr : Mem 6

structure SnsdNtMsgSmp where
  rcvCnt : ℕ
  lastSampCnt : ℕ
  deriving DecidableEq

structure SnsdAttackMonitor where
  drop : Bool
  dropInterval : ℕ
  deriving DecidableEq

/-- `struct snsd_listener`, less the interface name, which is only printed. -/
structure SnsdListenerSlot where
  listeningFd : ℤ
  hostIp : Vector (Mem 16) 64
  addr : SockaddrLl
  smp : SnsdNtMsgSmp
  dropMonitor : SnsdAttackMonitor

structure SnsdListenerInfo where
  listener : Vector SnsdListenerSlot snsdMaxListener
  lastSempTime : ℤ

/-- The part of a slot that the receive path reads. -/
def SnsdListenerSlot.view (l : SnsdListenerSlot) : SnsdListener :=
  ⟨l.hostIp, l.addr.sllAddr, l.dropMonitor.drop⟩

/-- The slot as `memset` and `snsd_init_listeners` leave it. -/
def SnsdListenerSlot.init : SnsdListenerSlot :=
  ⟨-1, Vector.replicate 64 (Mem.zero 16), ⟨0, 0, 0, Mem.zero 6⟩, ⟨0, 0⟩, ⟨false, 0⟩⟩

def snsdInitListeners (now : ℤ) : SnsdListenerInfo :=
  ⟨Vector.replicate snsdMaxListener .init, now⟩

namespace SnsdListenerInfo

def modify (t : SnsdListenerInfo) (i : Fin snsdMaxListener)
    (f : SnsdListenerSlot → SnsdListenerSlot) : SnsdListenerInfo :=
  { t with listener := setAt t.listener i (f (t.listener.get i)) }

/-- The first slot of a descriptor; the free slots have descriptor -1. -/
def find (t : SnsdListenerInfo) (fd : ℤ) : Option (Fin snsdMaxListener) :=
  firstIdx t.listener fun l => l.listeningFd == fd

end SnsdListenerInfo

/-- What the kernel answers while a socket is set up: whether each call succeeds. -/
structure SockReplies where
  bind : Bool
  addMembership : Bool
  setPriority : Bool
  setNonblock : Bool
  epollAdd : Bool
  deriving DecidableEq

def snsdLookupListenerId (t : SnsdListenerInfo) (sockFd : ℤ) :
    Option (SnsdListenerInfo × Fin snsdMaxListener) :=
  (t.find (-1)).map fun i => (t.modify i fun l => { l with listeningFd := sockFd }, i)

def snsdUpdateServerSock (t : SnsdListenerInfo) (sockFd : ℤ) (port : SnsdPortRelatedInfo) :
    SnsdListenerInfo × ℤ :=
  match snsdLookupListenerId t sockFd with
  | none => (t, - ENXIO)
  | some (t, listenerId) =>
    (t.modify listenerId fun l =>
      { l with addr := ⟨port.family, port.ifindex, htons ethNtsType, port.mac⟩ }, 0)

def snsdSetSockOptions (r : SockReplies) : ℤ :=
  if !r.addMembership then -1
  else if !r.setPriority then -1
  else if !r.setNonblock then -EPERM
  else 0

def snsdEpollAddEvent (r : SockReplies) : ℤ := if r.epollAdd then 0 else -EPERM

def snsdAddServer (r : SockReplies) (t : SnsdListenerInfo) (sockFd : ℤ)
    (port : SnsdPortRelatedInfo) : SnsdListenerInfo × ℤ :=
  let result := snsdSetSockOptions r
  if result ≠ 0 then (t, result)
  else
    let (t, result) := snsdUpdateServerSock t sockFd port
    if result ≠ 0 then (t, result)
    else
      -- the slot stays claimed when the registration fails
      let result := snsdEpollAddEvent r
      if result ≠ 0 then (t, result) else (t, 0)

/-- Only the descriptor is cleared. -/
def snsdRemoveServer (t : SnsdListenerInfo) (sockFd : ℤ) : SnsdListenerInfo × ℤ :=
  match t.find sockFd with
  | some idx => (t.modify idx fun l => { l with listeningFd := -1 }, 0)
  | none => (t, 0)

def snsdAddServerIp (t : SnsdListenerInfo) (sockFd : ℤ) (port : SnsdPortRelatedInfo) :
    SnsdListenerInfo × ℤ :=
  match t.find sockFd with
  | none => (t, - ENODEV)
  | some idx =>
    match insertSlot (Mem.zero 16) port.ip (t.listener.get idx).hostIp with
    | some hostIp => (t.modify idx fun l => { l with hostIp := hostIp }, 0)
    | none => (t, - ENODEV)

/-- An address that is not there is no failure. -/
def snsdRemoveServerIp (t : SnsdListenerInfo) (sockFd : ℤ) (port : SnsdPortRelatedInfo) :
    SnsdListenerInfo × ℤ :=
  match t.find sockFd with
  | none => (t, 0)
  | some idx =>
    (t.modify idx fun l => { l with hostIp := eraseSlot (Mem.zero 16) port.ip l.hostIp }, 0)

inductive SnsdSockEvent
  | create
  | close
  | addIp
  | removeIp
  | butt
  deriving DecidableEq

def snsdUpdateServer (r : SockReplies) (t : SnsdListenerInfo) (sockFd : ℤ)
    (port : SnsdPortRelatedInfo) : SnsdSockEvent → SnsdListenerInfo × ℤ
  | .create => snsdAddServer r t sockFd port
  | .close => snsdRemoveServer t sockFd
  | .addIp => snsdAddServerIp t sockFd port
  | .removeIp => snsdRemoveServerIp t sockFd port
  | .butt => (t, -1)

def snsdListenerMsgInc (t : SnsdListenerInfo) (fd : ℤ) : SnsdListenerInfo :=
  match t.find fd with
  | some i => t.modify i fun l => { l with smp := { l.smp with rcvCnt := u64 (l.smp.rcvCnt+1) } }
  | none => t

def snsdGetServerListener (t : SnsdListenerInfo) (fd : ℤ) : Option (Fin snsdMaxListener) :=
  t.find fd

/-- Nothing happens to a monitor that is in the state already. -/
def snsdListenerStateChange (m : SnsdAttackMonitor) (newFlag : Bool) : SnsdAttackMonitor :=
  if m.drop ≠ newFlag then
    if newFlag then { m with dropInterval := 0, drop := newFlag }
    else
      let m := { m with dropInterval := u32 (m.dropInterval+1) }
      if m.dropInterval > snsdAttackRecoveryPeriod then { m with drop := newFlag } else m
  else m

/-- What a sample does to one listener. -/
def listenerSample (threshold : ℕ) (l : SnsdListenerSlot) : SnsdListenerSlot :=
  let curCnt := l.smp.rcvCnt
  let lastCnt := l.smp.lastSampCnt
  { l with
    smp := { l.smp with lastSampCnt := curCnt }
    dropMonitor :=
      if curCnt > lastCnt then
        if curCnt-lastCnt ≥ threshold then snsdListenerStateChange l.dropMonitor true
        else snsdListenerStateChange l.dropMonitor false
      else snsdListenerStateChange l.dropMonitor false }

def snsdListenerMonitor (t : SnsdListenerInfo) (now period : ℤ) (threshold : ℕ) :
    SnsdListenerInfo :=
  if now-t.lastSempTime < period then t
  else ⟨t.listener.map (listenerSample threshold), now⟩

def snsdAttackDetect (t : SnsdListenerInfo) (now : ℤ) : SnsdListenerInfo :=
  snsdListenerMonitor t now snsdDetectPeriod snsdAttackThreshold

/-! Runs of the table. -/

/-- What happens to the table, with the kernel's answers where there are any. -/
inductive ListenerEvent
  | update (fd : ℕ) (port : SnsdPortRelatedInfo) (event : SnsdSockEvent) (replies : SockReplies)
  | receive (fd : ℕ)
  | detect (now : ℤ)

def listenerStep (t : SnsdListenerInfo) : ListenerEvent → SnsdListenerInfo
  | .update fd port event r => (snsdUpdateServer r t fd port event).1
  | .receive fd => snsdListenerMsgInc t fd
  | .detect now => snsdAttackDetect t now

def listenerRun (t : SnsdListenerInfo) (es : List ListenerEvent) : SnsdListenerInfo :=
  es.foldl listenerStep t

end NvmeSnsd.Server
