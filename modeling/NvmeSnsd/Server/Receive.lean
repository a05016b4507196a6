import NvmeSnsd.Server.AckSpec
import NvmeSnsd.Server.ConnectChange

/-! The receive buffer in front of the decoder: which writes on the way of a
frame stay inside their objects. -/
namespace NvmeSnsd.Server
open Lib

/-- `rcv_buf[read_cnt] = '\\0'` after `recvmsg` has stored the frame. -/
def terminate (frame : Bytes) : Except Fault (Mem 1514) := do
  let rcvBuf ← (Mem.zero 1514).store 0 frame
  rcvBuf.store frame.length [0]

/-- `snsd_client_notify` from the receive buffer on: the terminator is stored
before the drop state is looked at. -/
def snsdClientNotifyRcv (env : ℕ → MsgPool → MsgPool) (listener : Option SnsdListener)
    (recv : Option Bytes) (pool : MsgPool) : Except Fault (RcvState × Option Bytes) :=
  match listener, recv with
  | some l, some frame =>
    if frame.length = 0 then snsdClientNotify env (some l) (some frame) pool
    else do
      let rcvBuf ← terminate frame
      snsdClientNotify env (some l) (some (rcvBuf.read 0 frame.length)) pool
  | l, r => snsdClientNotify env l r pool

section Receive
variable {frame : Bytes}

theorem terminate_full (h : frame.length = snsdMaxBufferLen) :
    terminate frame = .error (.store 1514 1 1514) := by
  have h : frame.length = 1514 := h
  rw [terminate, Mem.store_ok (by omega), ok_bind, Mem.store, if_neg, h]
  · rfl
  · rw [h]
    decide

/-- A shorter frame is read back as it came. -/
theorem terminate_ok (h : frame.length < snsdMaxBufferLen) :
    ∃ rcvBuf, terminate frame = .ok rcvBuf ∧ rcvBuf.read 0 frame.length = frame := by
  have h : frame.length < 1514 := h
  refine ⟨((Mem.zero 1514).write 0 frame).write frame.length [0], ?_, ?_⟩
  · rw [terminate, Mem.store_ok (by omega), ok_bind, Mem.store_ok]
    simpa using h
  · rw [Mem.read_write_before (Nat.zero_add _).le]
    exact Mem.read_write (by omega)

/-- Decoding, collecting the acknowledgement and sending it never fault. -/
theorem clientNotify_ok (env : ℕ → MsgPool → MsgPool) (l : SnsdListener) (frame : Bytes)
    (pool : MsgPool) : ∃ r, snsdClientNotify env (some l) (some frame) pool = .ok r := by
  by_cases hskip : frame.length = 0 ∨ l.drop = true
  · refine ⟨(⟨pool, .zero, [], 0⟩, none), ?_⟩
    rw [snsdClientNotify]
    simp only [Bool.or_eq_true, decide_eq_true_eq, hskip, if_true]
    rfl
  · obtain ⟨s', calls, hs', -⟩ := processNtMsg_spec env l frame
      (s := ⟨pool, snsdBuildAckHeader l.addr .zero, [], 0⟩) rfl rfl rfl
    refine ⟨({ s' with ack := (snsdSendAck s'.ack).1 }, (snsdSendAck s'.ack).2), ?_⟩
    rw [snsdClientNotify]
    simp only [Bool.or_eq_true, decide_eq_true_eq, hskip, if_false, hs', ok_bind]
    rfl

end Receive

/-- Every write on the way of a frame is inside its object exactly when the
frame leaves room for the terminator. -/
theorem receive_writes_inside_iff (env : ℕ → MsgPool → MsgPool) (l : SnsdListener) (frame : Bytes)
    (hpos : 0 < frame.length) (hmax : frame.length ≤ snsdMaxBufferLen) (pool : MsgPool) :
    ((∃ r, snsdClientNotifyRcv env (some l) (some frame) pool = .ok r) ∧
        ∀ call : DispatchCall, ∃ request, call.perform = .ok request) ↔
      frame.length < snsdMaxBufferLen := by
  have hrcv : snsdClientNotifyRcv env (some l) (some frame) pool = (do
      let rcvBuf ← terminate frame
      snsdClientNotify env (some l) (some (rcvBuf.read 0 frame.length)) pool) :=
    if_neg hpos.ne'
  rw [hrcv]
  constructor
  · rintro ⟨⟨r, hr⟩, -⟩
    by_contra hlt
    rw [terminate_full (by omega)] at hr
    cases hr
  · intro hlt
    obtain ⟨rcvBuf, hok, hback⟩ := terminate_ok hlt
    constructor
    · rw [hok, ok_bind, hback]
      exact clientNotify_ok env l frame pool
    · intro call
      cases call with
      | invalid msg => exact ⟨none, rfl⟩
      | connectChange msg type =>
        obtain ⟨param, -, -, -, h⟩ := connectChange_spec msg type
        exact ⟨_, by rw [DispatchCall.perform, h]; rfl⟩

theorem receive_writes_inside_sample :
    ((∃ r, snsdClientNotifyRcv (fun _ p => p) (some sampleListener) (some sampleFrame) .bare =
          .ok r) ∧ ∀ call : DispatchCall, ∃ request, call.perform = .ok request) ↔
      sampleFrame.length < snsdMaxBufferLen :=
  receive_writes_inside_iff (fun _ p => p) sampleListener sampleFrame (by decide) (by decide) .bare

/-- A frame as long as the buffer: the terminator goes to the byte behind it. -/
theorem full_frame_overflows :
    snsdClientNotifyRcv (fun _ p => p) (some sampleListener)
      (some (List.replicate snsdMaxBufferLen 0)) .bare = .error (.store 1514 1 1514) := by
  have hlen : (List.replicate snsdMaxBufferLen (0 : UInt8)).length = snsdMaxBufferLen :=
    List.length_replicate
  have hne : ¬ (List.replicate snsdMaxBufferLen (0 : UInt8)).length = 0 := by
    rw [hlen]
    decide
  rw [snsdClientNotifyRcv, if_neg hne, terminate_full hlen]
  rfl

end NvmeSnsd.Server
