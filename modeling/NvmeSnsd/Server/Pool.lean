import NvmeSnsd.Lib.CircularList
import NvmeSnsd.Server.Message

/-! The message pool between the receive thread and the handler thread: nodes
allocated once, a list of free ones and a list of posted ones. -/
namespace NvmeSnsd.Server
open Lib

def snsdMaxMsgNum : ℕ := 1000

/-- `enum nt_msg_notify_type` -/
def notifyHostInactive : ℕ := 0
def notifyHostActive : ℕ := 1

/-- The two list heads and the node of the `i`-th allocated message. -/
inductive NodeAddr
  | recv
  | active
  | node (i : ℕ)
  deriving DecidableEq

/-- `struct snsd_msg_list` with the messages its nodes are embedded in. -/
structure MsgPool where
  links : Links NodeAddr
  msg : NodeAddr → NtMsg

namespace MsgPool

/-- Both list heads initialised, nothing allocated. -/
def bare : MsgPool :=
  { links := ((⟨id, id⟩ : Links NodeAddr).initHead .recv).initHead .active
    msg := fun _ => NtMsg.init 0 }

end MsgPool

def snsdInitMsg (alloc : ℕ → Bool) (p : MsgPool) (idx : ℕ) : Option MsgPool :=
  if alloc idx then
    some { links := p.links.addTail (.node idx) .recv
           msg := Function.update p.msg (.node idx) (NtMsg.init 0) }
  else none

/-- `none` when an allocation fails: the nodes are given back and the server
does not start. -/
def snsdInitMsgResource (alloc : ℕ → Bool) : Option MsgPool :=
  (List.range snsdMaxMsgNum).foldlM (snsdInitMsg alloc) .bare

/-- The new pool and the returned code. -/
def snsdPostOneMsg (p : MsgPool) (msg : NtMsg) : MsgPool × ℤ :=
  if msg.roleType = snsdClient then (p, 0)
  else if !p.links.isEmpty .recv then
    let node := p.links.next .recv
    let links := p.links.del node
    let msgs := Function.update p.msg node msg
    (⟨links.addTail node .active, msgs⟩, 0)
  else (p, -1)

/-- What the handler thread does with one message. -/
inductive DispatchCall
  | connectChange (msg : NtMsg) (type : ℕ)
  | invalid (msg : NtMsg)
  deriving DecidableEq

/-- `state` is an `unsigned char`. -/
def dispatchCall (msg : NtMsg) : DispatchCall :=
  let state := msg.state%2^8
  if state = notifyHostActive ∨ state = notifyHostInactive then .connectChange msg state
  else .invalid msg

/-- `cur_msg` and `next_msg` of the iteration in `snsd_msg_dispatch`. -/
structure DispatchCursor where
  cur : NodeAddr
  next : NodeAddr
  deriving DecidableEq

namespace MsgPool

def dispatchStart (p : MsgPool) : DispatchCursor :=
  let cur := p.links.next .active
  ⟨cur, p.links.next cur⟩

/-- One iteration: the call made, the node given back cleared. -/
def dispatchNode (p : MsgPool) (c : DispatchCursor) : MsgPool × DispatchCursor × DispatchCall :=
  let call := dispatchCall (p.msg c.cur)
  let links := p.links.del c.cur
  let msgs := Function.update p.msg c.cur (NtMsg.init 0)
  let links := links.addTail c.cur .recv
  (⟨links, msgs⟩, ⟨c.next, links.next c.next⟩, call)

end MsgPool

/-- The pool, where the handler thread stands while it holds `msg.mutex`, the
messages whose post returned 0 and was not dropped for its role, and the calls
made for messages. -/
structure PoolSys where
  pool : MsgPool
  holder : Option DispatchCursor
  posted : List NtMsg
  calls : List DispatchCall

/-- A post by the receive thread, or a move of the handler thread. -/
inductive PoolEvent
  | post (msg : NtMsg)
  | lock
  | dispatch
  | unlock

/-- `none` when the thread has to wait for the mutex or is elsewhere. -/
def poolStep (s : PoolSys) : PoolEvent → Option PoolSys
  | .post msg =>
    if msg.roleType = snsdClient then some s
    else if s.holder.isSome then none
    else
      let r := snsdPostOneMsg s.pool msg
      some { s with
        pool := r.1
        posted := if r.2 = 0 then s.posted ++ [msg] else s.posted }
  | .lock =>
    match s.holder with
    | none => some { s with holder := some s.pool.dispatchStart }
    | some _ => none
  | .dispatch =>
    match s.holder with
    | some c =>
      if c.cur = .active then none
      else
        let (pool, c', call) := s.pool.dispatchNode c
        some { s with pool := pool, holder := some c', calls := s.calls ++ [call] }
    | none => none
  | .unlock =>
    match s.holder with
    | some c => if c.cur = .active then some { s with holder := none } else none
    | none => none

def poolRun (s : PoolSys) (events : List PoolEvent) : Option PoolSys := events.foldlM poolStep s

/-- The system once its pool is initialised. -/
def PoolSys.start (p : MsgPool) : PoolSys := ⟨p, none, [], []⟩

end NvmeSnsd.Server
