import NvmeSnsd.Lib.Run
import NvmeSnsd.Server.PoolSpec
import NvmeSnsd.Server.Receive

/-! The receive thread and the handler thread at work together: a frame is
dealt with record by record, and the handler thread moves in between. -/
namespace NvmeSnsd.Server
open Lib

/-- The records that a frame hands to `snsd_deal_one_msg`, in order. -/
def frameRecords (frame : Bytes) : Except Fault (List NtMsg) := do
  let (msgs, _) ← snsdProcessNtMsg (fun msgs msg => .ok (msgs ++ [msg])) frame []
  return msgs

/-- Where `snsd_client_notify` stands in a frame: the records it has still to
deal with, and what those before left. -/
structure Handling where
  listener : SnsdListener
  frame : Bytes
  left : List NtMsg
  rcv : RcvState

/-- A frame that was dealt with: the pool each of its records met, and what
was sent in answer. -/
structure Answer where
  listener : SnsdListener
  frame : Bytes
  seen : List MsgPool
  sent : Option Bytes

structure Pipe where
  sys : PoolSys
  handling : Option Handling
  answers : List Answer

/-- `recv` starts a call of `snsd_client_notify`, `record` is a call of
`snsd_deal_one_msg` and `send` ends the frame; the others are the handler's. -/
inductive PipeMove
  | recv (listener : Option SnsdListener) (read : Option Bytes)
  | record
  | send
  | lock
  | dispatch
  | unlock

def Pipe.start (p : MsgPool) : Pipe := ⟨.start p, none, []⟩

/-- The terminator is stored before the drop state is looked at. -/
def recvMove (s : Pipe) (listener : Option SnsdListener) (read : Option Bytes) :
    Option (Except Fault Pipe) :=
  if s.handling.isSome then none
  else some <| match listener, read with
    | some l, some frame =>
      if frame.length = 0 then .ok s
      else do
        let rcvBuf ← terminate frame
        if l.drop then return s
        let frame := rcvBuf.read 0 frame.length
        let left ← frameRecords frame
        let rcv : RcvState := ⟨s.sys.pool, snsdBuildAckHeader l.addr .zero, [], 0⟩
        return { s with handling := some ⟨l, frame, left, rcv⟩ }
    | _, _ => .ok s

/-- A record that has to be posted waits for the mutex. -/
def recordMove (s : Pipe) : Option (Except Fault Pipe) :=
  match s.handling with
  | some h =>
    match h.left with
    | msg :: left =>
      let posts :=
        snsdCheckMsgComplete msg.map && snsdCheckHostipConsistent h.listener.hostIp msg
      (if posts then poolStep s.sys (.post msg) else some s.sys).map fun sys => do
        let rcv ← snsdDealOneMsg (fun _ _ => s.sys.pool) h.listener.hostIp h.rcv msg
        return { s with
          sys := { sys with pool := rcv.pool }
          handling := some { h with left := left, rcv := rcv } }
    | [] => none
  | none => none

def sendMove (s : Pipe) : Option (Except Fault Pipe) :=
  match s.handling with
  | some h =>
    match h.left with
    | [] =>
      let answer : Answer := ⟨h.listener, h.frame, h.rcv.seen, (snsdSendAck h.rcv.ack).2⟩
      some (.ok { s with handling := none, answers := s.answers ++ [answer] })
    | _ :: _ => none
  | none => none

def handlerMove (s : Pipe) (e : PoolEvent) : Option (Except Fault Pipe) :=
  (poolStep s.sys e).map fun sys => .ok { s with sys := sys }

/-- `none` when the move has to wait or is not the thread's turn. -/
def pipeMove (s : Pipe) : PipeMove → Option (Except Fault Pipe)
  | .recv listener read => recvMove s listener read
  | .record => recordMove s
  | .send => sendMove s
  | .lock => handlerMove s .lock
  | .dispatch => handlerMove s .dispatch
  | .unlock => handlerMove s .unlock

def pipeStep (s : Pipe) (m : PipeMove) : Option Pipe := (pipeMove s m).bind Except.toOption

/-! What was acknowledged. -/

/-- The roots of a frame that were accepted, given the pools they met. -/
def ackedRoots (l : SnsdListener) (frame : Bytes) (seen : List MsgPool) : List Tlv :=
  acceptedRoots l.hostIp (frameRoots frame).2 (frameRoots frame).1 seen

/-- The record of a root of a frame. -/
def rootRecord (frame : Bytes) (root : Tlv) : NtMsg :=
  recordOf (frameRoots frame).2 (subTlvs root)

/-- The frame that answers a frame. -/
def answerFrame (l : SnsdListener) (frame : Bytes) (acked : List Tlv) : Option Bytes :=
  if acked = [] then none
  else some (ackFrame l.addr (ackPayload (frameRoots frame).2 acked))

def Handling.acked (h : Handling) : List NtMsg :=
  (ackedRoots h.listener h.frame h.rcv.seen).map (rootRecord h.frame)

def Answer.acked (a : Answer) : List NtMsg :=
  (ackedRoots a.listener a.frame a.seen).map (rootRecord a.frame)

/-- The records acknowledged so far, the last ones by a frame still to be sent. -/
def Pipe.acked (s : Pipe) : List NtMsg :=
  s.answers.flatMap Answer.acked ++ (s.handling.map Handling.acked).getD []

/-- A record of another role than the host's own is for the handler thread. -/
def forHandler (msg : NtMsg) : Bool := msg.roleType != snsdClient

section Decode
variable {σ : Type} {deal : σ → NtMsg → Except Fault σ}

/-- A frame is dealt with by its records, one after the other. -/
theorem processNtMsg_foldlM (frame : Bytes) {acc final : σ}
    (h : ((frameRoots frame).1.map (rootRecord frame)).foldlM deal acc = .ok final) :
    ∃ calls, snsdProcessNtMsg deal frame acc = .ok (final, calls) := by
  obtain ⟨hdr, hr, hfits⟩ := getMsgHeader_spec frame
  match hdr, hr, hfits with
  | none, hr, _ =>
    rw [frameRoots_none hr] at h
    obtain rfl := Except.ok.inj h
    exact ⟨[], by rw [snsdProcessNtMsg, hr]; rfl⟩
  | some (tlvLen, ver), hr, hfits =>
    have hf := hfits tlvLen ver rfl
    have hle := hf.tlvLen_le
    have hin := hf.fits
    have hmax : snsdMaxTlvLen = 1492 := rfl
    unfold rootRecord at h
    rw [frameRoots_some hr] at h
    obtain ⟨calls, hd, -⟩ := decodeNtTlv_spec
      (Ptr.add ⟨frame, 0⟩ (sizeofNtMsgHeader+sizeofEthHdr)) tlvLen ver
      (by simp only [Ptr.add_off, Ptr.add_mem]; omega) (by omega) (by rw [Ptr.add_rest]; exact h)
    exact ⟨calls, by rw [snsdProcessNtMsg, hr]; exact hd⟩

theorem frameRecords_eq (frame : Bytes) :
    frameRecords frame = .ok ((frameRoots frame).1.map (rootRecord frame)) := by
  obtain ⟨calls, h⟩ := processNtMsg_foldlM frame
    (foldlM_append_ok ((frameRoots frame).1.map (rootRecord frame)) [])
  rw [frameRecords, h]
  rfl

theorem frameRoots_size_le (frame : Bytes) :
    ((frameRoots frame).1.map Tlv.size).sum ≤ snsdMaxTlvLen := by
  obtain ⟨hdr, hr, hfits⟩ := getMsgHeader_spec frame
  match hdr, hr, hfits with
  | none, hr, _ =>
    rw [frameRoots_none hr]
    exact Nat.zero_le _
  | some (tlvLen, ver), hr, hfits =>
    have hle := (hfits tlvLen ver rfl).tlvLen_le
    rw [frameRoots_some hr]
    apply (Tlv.parse_size_le isNotifyRoot _).trans
    rw [List.length_take]
    omega

end Decode

section Deal
variable {hostIp : Vector (Mem 16) 64} {msg : NtMsg} {rcv rcv' : RcvState} {pool : MsgPool}

/-- The message is to be posted: it is complete and meant for the host. -/
def postable (hostIp : Vector (Mem 16) 64) (msg : NtMsg) : Bool :=
  snsdCheckMsgComplete msg.map && snsdCheckHostipConsistent hostIp msg

/-- Of the environment only the pool met counts. -/
theorem dealOneMsg_env (env : ℕ → MsgPool → MsgPool) (h : env rcv.seen.length rcv.pool = pool) :
    snsdDealOneMsg env hostIp rcv msg = snsdDealOneMsg (fun _ _ => pool) hostIp rcv msg := by
  simp only [snsdDealOneMsg, h]

theorem dealOneMsg_seen (h : snsdDealOneMsg (fun _ _ => pool) hostIp rcv msg = .ok rcv') :
    rcv'.seen = rcv.seen ++ [pool] := by
  simp only [snsdDealOneMsg] at h
  split_ifs at h
  · obtain ⟨r, -, h⟩ := bind_eq_ok.mp h
    cases r with
    | none => rw [← Except.ok.inj h]
    | some ack => rw [← Except.ok.inj h]
  all_goals rw [← Except.ok.inj h]

theorem dealOneMsg_pool (h : snsdDealOneMsg (fun _ _ => pool) hostIp rcv msg = .ok rcv') :
    rcv'.pool = if postable hostIp msg then (snsdPostOneMsg pool msg).1 else pool := by
  simp only [snsdDealOneMsg] at h
  rw [postable]
  cases hc : snsdCheckMsgComplete msg.map with
  | false =>
    rw [hc] at h
    rw [← Except.ok.inj h]
    rfl
  | true =>
    cases hh : snsdCheckHostipConsistent hostIp msg with
    | false =>
      rw [hc, hh] at h
      rw [← Except.ok.inj h]
      rfl
    | true =>
      simp only [hc, hh, if_true] at h
      split_ifs at h
      · obtain ⟨r, -, h⟩ := bind_eq_ok.mp h
        cases r with
        | none => rw [← Except.ok.inj h]; rfl
        | some ack => rw [← Except.ok.inj h]; rfl
      · rw [← Except.ok.inj h]
        rfl

end Deal

section Post
variable {hostIp : Vector (Mem 16) 64} {msg : NtMsg} {s s' : PoolSys}

theorem accepted_eq (hostIp : Vector (Mem 16) 64) (pool : MsgPool) (msg : NtMsg) :
    accepted hostIp pool msg = (postable hostIp msg && decide ((snsdPostOneMsg pool msg).2 = 0)) := by
  rw [accepted, postable]
  congr 1
  rw [Bool.eq_iff_iff, decide_eq_true_iff]
  exact (post_ok_iff pool msg).symm

/-- The part of the pool system in one record. -/
def recordSys (hostIp : Vector (Mem 16) 64) (s : PoolSys) (msg : NtMsg) : Option PoolSys :=
  if postable hostIp msg then poolStep s (.post msg) else some s

/-- What a post does to the pool system, once it has the mutex. -/
def PoolSys.withPost (s : PoolSys) (msg : NtMsg) : PoolSys :=
  { s with
    pool := (snsdPostOneMsg s.pool msg).1
    posted := if (snsdPostOneMsg s.pool msg).2 = 0 then s.posted ++ [msg] else s.posted }

theorem poolStep_post_client (hrole : msg.roleType = snsdClient) :
    poolStep s (.post msg) = some s := if_pos hrole

theorem poolStep_post_free (hrole : msg.roleType ≠ snsdClient) (h : s.holder = none) :
    poolStep s (.post msg) = some (s.withPost msg) := by
  rw [poolStep, if_neg hrole, if_neg (by rw [h]; exact Bool.false_ne_true)]
  rfl

theorem poolStep_post_held (hrole : msg.roleType ≠ snsdClient) (h : s.holder ≠ none) :
    poolStep s (.post msg) = none := by
  rw [poolStep, if_neg hrole, if_pos (Option.isSome_iff_ne_none.mpr h)]

/-- The three ways of a record: not to be posted, dropped for its role, posted. -/
theorem recordSys_cases (h : recordSys hostIp s msg = some s') :
    (postable hostIp msg = false ∧ s' = s) ∨
      (postable hostIp msg = true ∧ msg.roleType = snsdClient ∧ s' = s) ∨
      (postable hostIp msg = true ∧ msg.roleType ≠ snsdClient ∧ s' = s.withPost msg) := by
  rw [recordSys] at h
  cases hp : postable hostIp msg with
  | false =>
    rw [hp] at h
    exact .inl ⟨rfl, (Option.some.inj h).symm⟩
  | true =>
    rw [hp, if_pos rfl] at h
    right
    by_cases hrole : msg.roleType = snsdClient
    · rw [poolStep_post_client hrole] at h
      exact .inl ⟨rfl, hrole, (Option.some.inj h).symm⟩
    · by_cases hh : s.holder = none
      · rw [poolStep_post_free hrole hh] at h
        exact .inr ⟨rfl, hrole, (Option.some.inj h).symm⟩
      · rw [poolStep_post_held hrole hh] at h
        cases h

theorem recordSys_pool (h : recordSys hostIp s msg = some s') :
    s'.pool = if postable hostIp msg then (snsdPostOneMsg s.pool msg).1 else s.pool := by
  rcases recordSys_cases h with ⟨hp, rfl⟩ | ⟨hp, hrole, rfl⟩ | ⟨hp, _, rfl⟩
  · rw [hp, if_neg Bool.false_ne_true]
  · rw [hp, if_pos rfl, snsdPostOneMsg, if_pos hrole]
  · rw [hp, if_pos rfl]
    rfl

/-- Posted is what is accepted and not for the host's own role. -/
theorem recordSys_posted (h : recordSys hostIp s msg = some s') :
    s'.posted = s.posted ++ (if accepted hostIp s.pool msg then [msg] else []).filter forHandler := by
  rw [accepted_eq]
  rcases recordSys_cases h with ⟨hp, rfl⟩ | ⟨hp, hrole, rfl⟩ | ⟨hp, hrole, rfl⟩
  · rw [hp]
    exact (List.append_nil _).symm
  · have hf : forHandler msg = false := by rw [forHandler, hrole]; rfl
    split <;> simp [hf]
  · have hf : forHandler msg = true := bne_iff_ne.mpr hrole
    rw [hp, Bool.true_and, PoolSys.withPost]
    by_cases hr : (snsdPostOneMsg s.pool msg).2 = 0
    · rw [if_pos hr, if_pos (decide_eq_true hr), List.filter_singleton, hf]
      rfl
    · rw [if_neg hr, if_neg (by rw [decide_eq_true_iff]; exact hr)]
      exact (List.append_nil _).symm

theorem recordSys_inv {free active : List NodeAddr} (hi : PoolInv s free active)
    (h : recordSys hostIp s msg = some s') : ∃ free' active', PoolInv s' free' active' := by
  rw [recordSys] at h
  split_ifs at h
  · exact poolStep_post hi h
  · obtain rfl := Option.some.inj h
    exact ⟨free, active, hi⟩

/-- A record only waits while the handler thread has the mutex. -/
theorem recordSys_ready (h : s.holder = none) (hostIp : Vector (Mem 16) 64) (msg : NtMsg) :
    ∃ s', recordSys hostIp s msg = some s' ∧ s'.holder = none := by
  rw [recordSys]
  by_cases hp : postable hostIp msg = true
  · rw [if_pos hp]
    by_cases hrole : msg.roleType = snsdClient
    · exact ⟨s, poolStep_post_client hrole, h⟩
    · exact ⟨s.withPost msg, poolStep_post_free hrole h, h⟩
  · rw [if_neg hp]
    exact ⟨s, rfl, h⟩

/-- The handler thread posts nothing. -/
theorem poolStep_posted {e : PoolEvent} (he : e = .lock ∨ e = .dispatch ∨ e = .unlock)
    (h : poolStep s e = some s') : s'.posted = s.posted := by
  rcases he with rfl | rfl | rfl
  · simp only [poolStep] at h
    split at h
    · rw [← Option.some.inj h]
    · cases h
  · simp only [poolStep] at h
    split at h
    · split_ifs at h
      rw [← Option.some.inj h]
    · cases h
  · simp only [poolStep] at h
    split at h
    · split_ifs at h
      rw [← Option.some.inj h]
    · cases h

end Post

section Invariant

/-- A frame in hand: the roots dealt with and those left are its roots, the
state is that of `snsd_client_notify` after the former, whatever moved in
between, and the acknowledgement is that of the accepted ones. -/
structure HandlingInv (h : Handling) (done rest : List Tlv) (pool : MsgPool) : Prop where
  pos : 0 < h.frame.length
  room : h.frame.length < snsdMaxBufferLen
  drop : h.listener.drop = false
  roots : (frameRoots h.frame).1 = done ++ rest
  left : h.left = rest.map (rootRecord h.frame)
  ack : AckInv h.listener.hostIp (frameRoots h.frame).2 (snsdBuildAckHeader h.listener.addr .zero)
    done h.rcv
  dealt : ∀ env : ℕ → MsgPool → MsgPool, (∀ i p, i < h.rcv.seen.length →
      h.rcv.seen[i]? = some (env i p)) →
    (done.map (rootRecord h.frame)).foldlM (snsdDealOneMsg env h.listener.hostIp)
      ⟨pool, snsdBuildAckHeader h.listener.addr .zero, [], 0⟩ = .ok h.rcv

/-- An answered frame: what the code for one frame does, and the answer. -/
structure AnswerInv (a : Answer) : Prop where
  notify : ∃ env pool s, snsdClientNotifyRcv env (some a.listener) (some a.frame) pool =
    .ok (s, a.sent) ∧ s.seen = a.seen
  sent : a.sent = answerFrame a.listener a.frame (ackedRoots a.listener a.frame a.seen)

structure PipeInv (s : Pipe) (free active : List NodeAddr) : Prop where
  pool : PoolInv s.sys free active
  handling : ∀ h, s.handling = some h → ∃ done rest pool, HandlingInv h done rest pool
  answers : ∀ a ∈ s.answers, AnswerInv a
  posted : s.sys.posted = s.acked.filter forHandler

variable {s t : Pipe} {free active : List NodeAddr}

theorem start_pipeInv {p : MsgPool} (h : p.Holds poolNodes []) :
    PipeInv (.start p) poolNodes [] :=
  ⟨start_inv h, fun _ hh => (Option.some_ne_none _ hh.symm).elim,
    fun _ ha => (List.not_mem_nil ha).elim, rfl⟩

/-- The roots left meet no pool yet. -/
theorem HandlingInv.acked_eq {h : Handling} {done rest : List Tlv} {pool : MsgPool}
    (hi : HandlingInv h done rest pool) :
    ackedRoots h.listener h.frame h.rcv.seen =
      acceptedRoots h.listener.hostIp (frameRoots h.frame).2 done h.rcv.seen := by
  rw [ackedRoots, hi.roots, acceptedRoots, acceptedRoots, ← List.append_nil h.rcv.seen,
    List.zip_append hi.ack.seen.symm, List.zip_nil_right, List.append_nil, List.append_nil]

/-- A frame without room for the terminator. -/
theorem terminate_long {frame : Bytes} (h : snsdMaxBufferLen ≤ frame.length) :
    ∃ fault, terminate frame = .error fault := by
  rcases Nat.eq_or_lt_of_le h with heq | hlt
  · exact ⟨_, terminate_full heq.symm⟩
  · have hlt : 1514 < frame.length := hlt
    exact ⟨_, by rw [terminate, Mem.store, if_neg (by omega)]; rfl⟩

/-- The frame in hand once it is decoded. -/
def takenUp (pool : MsgPool) (l : SnsdListener) (frame : Bytes) : Handling :=
  ⟨l, frame, (frameRoots frame).1.map (rootRecord frame),
    ⟨pool, snsdBuildAckHeader l.addr .zero, [], 0⟩⟩

theorem takenUp_acked (pool : MsgPool) (l : SnsdListener) (frame : Bytes) :
    (takenUp pool l frame).acked = [] := by
  rw [Handling.acked, ackedRoots, acceptedRoots, takenUp, List.zip_nil_right]
  rfl

theorem takenUp_inv {l : SnsdListener} {frame : Bytes} (hpos : 0 < frame.length)
    (hroom : frame.length < snsdMaxBufferLen) (hdrop : l.drop = false) (pool : MsgPool) :
    HandlingInv (takenUp pool l frame) [] (frameRoots frame).1 pool :=
  ⟨hpos, hroom, hdrop, rfl, rfl, start_ackInv _ _ rfl _, fun _ _ => rfl⟩

theorem recvMove_takes {l : SnsdListener} {frame : Bytes} (hfree : s.handling = none)
    (hpos : 0 < frame.length) (hroom : frame.length < snsdMaxBufferLen) (hdrop : l.drop = false) :
    recvMove s (some l) (some frame) =
      some (.ok { s with handling := some (takenUp s.sys.pool l frame) }) := by
  obtain ⟨rcvBuf, hok, hback⟩ := terminate_ok hroom
  have hne : ¬ frame.length = 0 := hpos.ne'
  have hbusy : ¬ s.handling.isSome = true := by rw [hfree]; exact Bool.false_ne_true
  rw [recvMove, if_neg hbusy]
  simp only [hne, if_false, hok, ok_bind, hdrop, Bool.false_eq_true, hback, frameRecords_eq]
  rfl

/-- Receiving takes up the records of the frame, or nothing at all. -/
theorem recvMove_inv (hi : PipeInv s free active) {listener : Option SnsdListener}
    {read : Option Bytes} {r : Except Fault Pipe} (hr : recvMove s listener read = some r) :
    (∃ t, r = .ok t ∧ PipeInv t free active ∧ s.acked <+: t.acked) ∨
      ∃ fault frame, r = .error fault ∧ read = some frame ∧ snsdMaxBufferLen ≤ frame.length := by
  have hfree : s.handling = none := by
    by_contra hbusy
    unfold recvMove at hr
    rw [if_pos (Option.isSome_iff_ne_none.mpr hbusy)] at hr
    cases hr
  have hnothing (hs : recvMove s listener read = some (.ok s)) :
      ∃ t, r = .ok t ∧ PipeInv t free active ∧ s.acked <+: t.acked := by
    rw [hs] at hr
    exact ⟨s, (Option.some.inj hr).symm, hi, List.prefix_rfl⟩
  have hbusy : ¬ s.handling.isSome = true := by rw [hfree]; exact Bool.false_ne_true
  cases listener with
  | none => exact .inl (hnothing (if_neg hbusy))
  | some l =>
    cases read with
    | none => exact .inl (hnothing (if_neg hbusy))
    | some frame =>
      by_cases h0 : frame.length = 0
      · exact .inl (hnothing (by rw [recvMove, if_neg hbusy]; simp only [h0, if_true]))
      have hpos : 0 < frame.length := Nat.pos_of_ne_zero h0
      by_cases hmax : snsdMaxBufferLen ≤ frame.length
      · obtain ⟨fault, hf⟩ := terminate_long hmax
        rw [recvMove, if_neg hbusy] at hr
        simp only [h0, if_false, hf] at hr
        exact .inr ⟨fault, frame, (Option.some.inj hr).symm, rfl, hmax⟩
      have hroom : frame.length < snsdMaxBufferLen := Nat.lt_of_not_le hmax
      left
      by_cases hdrop : l.drop = false
      · have hsame : Pipe.acked { s with handling := some (takenUp s.sys.pool l frame) } =
            s.acked := by
          rw [Pipe.acked, Pipe.acked, hfree, Option.map_some, Option.getD_some, takenUp_acked]
          rfl
        rw [recvMove_takes hfree hpos hroom hdrop] at hr
        refine ⟨_, (Option.some.inj hr).symm, ⟨hi.pool, ?_, hi.answers, ?_⟩, ?_⟩
        · intro h hh
          obtain rfl := Option.some.inj hh
          exact ⟨_, _, _, takenUp_inv hpos hroom hdrop s.sys.pool⟩
        · rw [hsame]
          exact hi.posted
        · rw [hsame]
      · apply hnothing
        obtain ⟨rcvBuf, hok, -⟩ := terminate_ok hroom
        rw [Bool.not_eq_false] at hdrop
        rw [recvMove, if_neg hbusy]
        simp only [h0, if_false, hok, ok_bind, hdrop, if_true]
        rfl

/-- The next record of a frame, once it has what it needs of the pool. -/
theorem HandlingInv.record {h : Handling} {done rest : List Tlv} {pool : MsgPool} {root : Tlv}
    (hi : HandlingInv h done (root :: rest) pool) (met : MsgPool) :
    ∃ rcv, snsdDealOneMsg (fun _ _ => met) h.listener.hostIp h.rcv (rootRecord h.frame root) =
        .ok rcv ∧
      HandlingInv { h with left := rest.map (rootRecord h.frame), rcv := rcv } (done ++ [root]) rest
        pool ∧
      Handling.acked { h with left := rest.map (rootRecord h.frame), rcv := rcv } =
        h.acked ++ if accepted h.listener.hostIp met (rootRecord h.frame root) then
          [rootRecord h.frame root] else [] := by
  have hroots : (frameRoots h.frame).1 = (done ++ [root]) ++ rest := by
    rw [hi.roots, List.append_assoc, List.singleton_append]
  have hroom : ((done ++ [root]).map Tlv.size).sum ≤ 1492 := by
    have hle := frameRoots_size_le h.frame
    rw [hroots, List.map_append, List.sum_append] at hle
    exact (Nat.le_add_right _ _).trans hle
  obtain ⟨rcv, hok, hack⟩ := dealOneMsg_step (fun _ _ => met) hi.ack hroom
  have hok : snsdDealOneMsg (fun _ _ => met) h.listener.hostIp h.rcv (rootRecord h.frame root) =
      .ok rcv := hok
  have hseen := dealOneMsg_seen hok
  have hnew : HandlingInv { h with left := rest.map (rootRecord h.frame), rcv := rcv }
      (done ++ [root]) rest pool := by
    refine ⟨hi.pos, hi.room, hi.drop, hroots, rfl, hack, fun env henv => ?_⟩
    -- the environment that showed every record its pool also shows this one
    have hold : ∀ i p, i < h.rcv.seen.length → h.rcv.seen[i]? = some (env i p) := by
      intro i p hlt
      rw [← henv i p (by rw [hseen, List.length_append]; omega), hseen,
        List.getElem?_append_left hlt]
    have hlast : env h.rcv.seen.length h.rcv.pool = met := by
      have he := henv h.rcv.seen.length h.rcv.pool (by rw [hseen, List.length_append]; simp)
      rw [hseen, List.getElem?_concat_length] at he
      exact (Option.some.inj he).symm
    rw [List.map_append, List.foldlM_append, hi.dealt env hold, ok_bind, List.map_singleton,
      List.foldlM_cons, dealOneMsg_env env hlast, hok]
    rfl
  refine ⟨rcv, hok, hnew, ?_⟩
  rw [Handling.acked, hnew.acked_eq, Handling.acked, hi.acked_eq, hseen,
    acceptedRoots_snoc _ _ hi.ack.seen, List.map_append]
  congr 1
  rw [rootRecord]
  split <;> rfl

theorem recordMove_inv (hi : PipeInv s free active) {r : Except Fault Pipe}
    (hr : recordMove s = some r) :
    ∃ t free' active', r = .ok t ∧ PipeInv t free' active' ∧ s.acked <+: t.acked := by
  unfold recordMove at hr
  split at hr
  · rename_i h hh
    split at hr
    · rename_i msg left hleft
      obtain ⟨done, rest, pool, hd⟩ := hi.handling h hh
      obtain ⟨sys, hsys, hr⟩ := Option.map_eq_some_iff.mp hr
      have hsys : recordSys h.listener.hostIp s.sys msg = some sys := hsys
      cases rest with
      | nil =>
        rw [hd.left] at hleft
        cases hleft
      | cons root rest =>
        obtain ⟨rfl, rfl⟩ := List.cons.inj (hd.left.symm.trans hleft)
        obtain ⟨rcv, hok, hnew, hacked⟩ := hd.record s.sys.pool
        obtain ⟨free', active', hp⟩ := recordSys_inv hi.pool hsys
        have hpool : rcv.pool = sys.pool := (dealOneMsg_pool hok).trans (recordSys_pool hsys).symm
        let t : Pipe := { s with
          sys := sys
          handling := some { h with left := rest.map (rootRecord h.frame), rcv := rcv } }
        have hgrow : t.acked = s.acked ++
            if accepted h.listener.hostIp s.sys.pool (rootRecord h.frame root) then
              [rootRecord h.frame root] else [] := by
          rw [Pipe.acked, Option.map_some, Option.getD_some, hacked, Pipe.acked, hh,
            Option.map_some, Option.getD_some, List.append_assoc]
        refine ⟨t, free', active', ?_, ⟨hp, ?_, hi.answers, ?_⟩, ?_⟩
        · rw [← hr, hok, ok_bind, hpool]
          rfl
        · intro h' hh'
          obtain rfl := Option.some.inj hh'
          exact ⟨_, _, _, hnew⟩
        · rw [hgrow, List.filter_append, ← hi.posted]
          exact recordSys_posted hsys
        · rw [hgrow]
          exact List.prefix_append _ _
    · cases hr
  · cases hr

/-- A frame whose records are dealt with is answered as collected. -/
theorem clientNotifyRcv_ok {env : ℕ → MsgPool → MsgPool} {l : SnsdListener} {frame : Bytes}
    {pool : MsgPool} {rcv : RcvState} {calls : List ValueCall} (hpos : 0 < frame.length)
    (hroom : frame.length < snsdMaxBufferLen) (hdrop : l.drop = false)
    (h : snsdProcessNtMsg (snsdDealOneMsg env l.hostIp) frame
      ⟨pool, snsdBuildAckHeader l.addr .zero, [], 0⟩ = .ok (rcv, calls)) :
    snsdClientNotifyRcv env (some l) (some frame) pool =
      .ok ({ rcv with ack := (snsdSendAck rcv.ack).1 }, (snsdSendAck rcv.ack).2) := by
  obtain ⟨rcvBuf, hok, hback⟩ := terminate_ok hroom
  have hne : ¬ frame.length = 0 := hpos.ne'
  rw [snsdClientNotifyRcv, if_neg hne, hok, ok_bind, hback, snsdClientNotify]
  simp only [hne, hdrop, decide_false, Bool.or_false, Bool.false_eq_true, if_false, h, ok_bind]
  rfl

/-- A frame without records left is answered. -/
theorem HandlingInv.answer {h : Handling} {done : List Tlv} {pool : MsgPool}
    (hi : HandlingInv h done [] pool) :
    AnswerInv ⟨h.listener, h.frame, h.rcv.seen, (snsdSendAck h.rcv.ack).2⟩ := by
  have hroots : (frameRoots h.frame).1 = done := by rw [hi.roots, List.append_nil]
  constructor
  · let env : ℕ → MsgPool → MsgPool := fun i _ => (h.rcv.seen[i]?).getD .bare
    have henv : ∀ i (p : MsgPool), i < h.rcv.seen.length → h.rcv.seen[i]? = some (env i p) := by
      intro i p hlt
      simp only [env, List.getElem?_eq_getElem hlt, Option.getD_some]
    have hrun := hi.dealt env henv
    rw [← hroots] at hrun
    obtain ⟨calls, hcalls⟩ := processNtMsg_foldlM h.frame hrun
    exact ⟨env, pool, _, clientNotifyRcv_ok hi.pos hi.room hi.drop hcalls, rfl⟩
  · have hle : (ackPayload (frameRoots h.frame).2
        (ackedRoots h.listener h.frame h.rcv.seen)).length ≤ snsdMaxTlvLen := by
      have hsize := frameRoots_size_le h.frame
      rw [hroots] at hsize
      rw [hi.acked_eq, ← hi.ack.len]
      exact hi.ack.budget.trans hsize
    have hlen := hi.ack.len
    have hpay := hi.ack.payload
    rw [← hi.acked_eq] at hlen hpay
    rw [sendAck_spec hi.ack.frame hlen hpay hle, answerFrame]
    simp only [ackPayload_eq_nil]

theorem sendMove_inv (hi : PipeInv s free active) {r : Except Fault Pipe}
    (hr : sendMove s = some r) :
    ∃ t, r = .ok t ∧ PipeInv t free active ∧ s.acked <+: t.acked := by
  unfold sendMove at hr
  split at hr
  · rename_i h hh
    split at hr
    · rename_i hleft
      obtain rfl := Option.some.inj hr
      obtain ⟨done, rest, pool, hd⟩ := hi.handling h hh
      obtain rfl : rest = [] := List.map_eq_nil_iff.mp (hd.left.symm.trans hleft)
      let answer : Answer := ⟨h.listener, h.frame, h.rcv.seen, (snsdSendAck h.rcv.ack).2⟩
      have hsame : Pipe.acked { s with handling := none, answers := s.answers ++ [answer] } =
          s.acked := by
        rw [Pipe.acked, Pipe.acked, hh, List.flatMap_append, List.flatMap_singleton,
          Option.map_none, Option.getD_none, List.append_nil]
        rfl
      refine ⟨_, rfl, ⟨hi.pool, fun _ hn => (Option.some_ne_none _ hn.symm).elim, ?_, ?_⟩, ?_⟩
      · intro a ha
        rcases List.mem_append.mp ha with ha | ha
        · exact hi.answers a ha
        · obtain rfl := List.mem_singleton.mp ha
          exact hd.answer
      · rw [hsame]
        exact hi.posted
      · rw [hsame]
    · cases hr
  · cases hr

theorem handlerMove_inv (hi : PipeInv s free active) {e : PoolEvent}
    (he : e = .lock ∨ e = .dispatch ∨ e = .unlock) {r : Except Fault Pipe}
    (hr : handlerMove s e = some r) :
    ∃ t free' active', r = .ok t ∧ PipeInv t free' active' ∧ s.acked <+: t.acked := by
  obtain ⟨sys, hsys, rfl⟩ := Option.map_eq_some_iff.mp hr
  obtain ⟨free', active', hp⟩ := poolStep_inv hi.pool hsys
  refine ⟨_, free', active', rfl, ⟨hp, hi.handling, hi.answers, ?_⟩, List.prefix_rfl⟩
  have hposted : sys.posted = s.sys.posted := poolStep_posted he hsys
  rw [hposted]
  exact hi.posted

/-- No move faults but the reception of a frame that fills the buffer. -/
theorem pipeMove_inv (hi : PipeInv s free active) {m : PipeMove} {r : Except Fault Pipe}
    (hr : pipeMove s m = some r) :
    (∃ t free' active', r = .ok t ∧ PipeInv t free' active' ∧ s.acked <+: t.acked) ∨
      ∃ fault listener frame, r = .error fault ∧ m = .recv listener (some frame) ∧
        snsdMaxBufferLen ≤ frame.length := by
  cases m with
  | recv listener read =>
    rcases recvMove_inv hi hr with ⟨t, rfl, ht⟩ | ⟨fault, frame, rfl, rfl, hmax⟩
    · exact .inl ⟨t, _, _, rfl, ht⟩
    · exact .inr ⟨fault, listener, frame, rfl, rfl, hmax⟩
  | record => exact .inl (recordMove_inv hi hr)
  | send =>
    obtain ⟨t, rfl, ht⟩ := sendMove_inv hi hr
    exact .inl ⟨t, _, _, rfl, ht⟩
  | lock => exact .inl (handlerMove_inv hi (.inl rfl) hr)
  | dispatch => exact .inl (handlerMove_inv hi (.inr (.inl rfl)) hr)
  | unlock => exact .inl (handlerMove_inv hi (.inr (.inr rfl)) hr)

theorem pipeStep_inv (hi : PipeInv s free active) {m : PipeMove} (ht : pipeStep s m = some t) :
    ∃ free' active', PipeInv t free' active' ∧ s.acked <+: t.acked := by
  obtain ⟨r, hr, ht⟩ := Option.bind_eq_some_iff.mp ht
  rcases pipeMove_inv hi hr with ⟨t', free', active', rfl, hi'⟩ | ⟨fault, _, _, rfl, _⟩
  · obtain rfl : t' = t := Option.some.inj ht
    exact ⟨free', active', hi'⟩
  · cases ht

theorem pipeRun_inv {ms : List PipeMove} (hi : PipeInv s free active)
    (ht : run pipeStep s ms = some t) :
    ∃ free' active', PipeInv t free' active' ∧ s.acked <+: t.acked := by
  induction ms generalizing s free active with
  | nil =>
    obtain rfl := Option.some.inj ht
    exact ⟨free, active, hi, List.prefix_rfl⟩
  | cons m ms ih =>
    obtain ⟨u, hu, ht⟩ := run_cons.mp ht
    obtain ⟨free', active', hi', hgrow⟩ := pipeStep_inv hi hu
    obtain ⟨free'', active'', hi'', hgrow'⟩ := ih hi' ht
    exact ⟨free'', active'', hi'', hgrow.trans hgrow'⟩

end Invariant

section Drain
variable {s t : Pipe} {free active : List NodeAddr}

/-- The move of the pipe that a move of the handler thread is. -/
def PoolEvent.move : PoolEvent → PipeMove
  | .lock => .lock
  | .dispatch => .dispatch
  | _ => .unlock

def PipeMove.isRecv : PipeMove → Bool
  | .recv _ _ => true
  | _ => false

theorem handler_step {e : PoolEvent} (he : e = .lock ∨ e = .dispatch ∨ e = .unlock)
    {sys : PoolSys} (h : poolStep s.sys e = some sys) :
    pipeStep s e.move = some { s with sys := sys } := by
  rcases he with rfl | rfl | rfl
  all_goals
    change (handlerMove s _).bind Except.toOption = _
    rw [handlerMove, h]
    rfl

theorem handler_run {es : List PoolEvent} (he : ∀ e ∈ es, e = .lock ∨ e = .dispatch ∨ e = .unlock)
    {s : Pipe} {sys : PoolSys} (h : poolRun s.sys es = some sys) :
    run pipeStep s (es.map PoolEvent.move) = some { s with sys := sys } := by
  induction es generalizing s with
  | nil =>
    obtain rfl := Option.some.inj h
    rfl
  | cons e es ih =>
    rw [poolRun, List.foldlM_cons] at h
    obtain ⟨sys', h1, h2⟩ := Option.bind_eq_some_iff.mp h
    have hrest := ih (fun x hx => he x (List.mem_cons_of_mem _ hx)) (s := { s with sys := sys' }) h2
    exact run_cons.mpr ⟨_, handler_step (he e List.mem_cons_self) h1, hrest⟩

/-- The handler thread by itself makes the pending calls and frees the mutex. -/
theorem handler_drains (hi : PipeInv s free active) :
    ∃ ms sys, (∀ m ∈ ms, m.isRecv = false) ∧ run pipeStep s ms = some { s with sys := sys } ∧
      sys.holder = none ∧ sys.calls = s.sys.posted.map dispatchCall := by
  obtain ⟨es, sys, hes, hrun, hcalls, hposted⟩ := dispatch_completes hi.pool
  have hms (es : List PoolEvent) : ∀ m ∈ es.map PoolEvent.move, m.isRecv = false := by
    intro m hm
    obtain ⟨e, -, rfl⟩ := List.mem_map.mp hm
    cases e <;> rfl
  cases hh : sys.holder with
  | none => exact ⟨_, sys, hms es, handler_run hes hrun, hh, hcalls⟩
  | some c =>
    -- nothing is pending any more, so the iteration is at its end
    obtain ⟨free', active', hp⟩ := poolRun_inv hi.pool hrun
    have hlen := congrArg List.length hp.history
    rw [hposted, ← hcalls, List.length_append, List.length_map] at hlen
    obtain rfl : active' = [] := List.eq_nil_of_length_eq_zero (by omega)
    have hcur : c.cur = .active := by
      rw [hp.cursor c hh]
      exact (dispatchStart_done_iff hp.holds).mpr rfl
    have hun : poolStep sys .unlock = some { sys with holder := none } := by
      simp only [poolStep, hh, hcur, if_true]
    refine ⟨(es ++ [PoolEvent.unlock]).map PoolEvent.move, { sys with holder := none }, hms _, ?_, rfl,
      hcalls⟩
    apply handler_run
    · intro e he
      rcases List.mem_append.mp he with he | he
      · exact hes e he
      · exact .inr (.inr (List.mem_singleton.mp he))
    · rw [poolRun, List.foldlM_append]
      exact Option.bind_eq_some_iff.mpr ⟨sys, hrun, Option.bind_eq_some_iff.mpr ⟨_, hun, rfl⟩⟩

/-- While the mutex is free, a record does not wait. -/
theorem record_step (hi : PipeInv s free active) {h : Handling} (hh : s.handling = some h)
    {msg : NtMsg} {left : List NtMsg} (hleft : h.left = msg :: left) (hfree : s.sys.holder = none) :
    ∃ t h', pipeStep s .record = some t ∧ t.handling = some h' ∧ h'.left = left ∧
      t.sys.holder = none := by
  obtain ⟨sys, hsys, hholder⟩ := recordSys_ready hfree h.listener.hostIp msg
  obtain ⟨done, rest, pool, hd⟩ := hi.handling h hh
  cases rest with
  | nil =>
    rw [hd.left] at hleft
    cases hleft
  | cons root rest =>
    obtain ⟨rfl, rfl⟩ := List.cons.inj (hd.left.symm.trans hleft)
    obtain ⟨rcv, hok, -⟩ := hd.record s.sys.pool
    rw [recordSys, postable] at hsys
    refine ⟨{ s with
      sys := { sys with pool := rcv.pool }
      handling := some { h with left := rest.map (rootRecord h.frame), rcv := rcv } },
      { h with left := rest.map (rootRecord h.frame), rcv := rcv }, ?_, rfl, rfl, hholder⟩
    simp only [pipeStep, pipeMove, recordMove, hh, hleft, hsys, Option.map_some, hok, ok_bind]
    rfl

/-- The receive thread by itself ends the frame. -/
theorem frame_ends {n : ℕ} {s : Pipe} {free active : List NodeAddr} (hi : PipeInv s free active)
    {h : Handling} (hh : s.handling = some h) (hn : h.left.length = n)
    (hfree : s.sys.holder = none) :
    ∃ t, run pipeStep s (List.replicate n .record ++ [.send]) = some t ∧ t.handling = none := by
  induction n generalizing s h free active with
  | zero =>
    have hleft : h.left = [] := List.eq_nil_of_length_eq_zero hn
    let answer : Answer := ⟨h.listener, h.frame, h.rcv.seen, (snsdSendAck h.rcv.ack).2⟩
    have hsend : pipeStep s .send =
        some { s with handling := none, answers := s.answers ++ [answer] } := by
      simp only [pipeStep, pipeMove, sendMove, hh, hleft]
      rfl
    exact ⟨_, run_cons.mpr ⟨_, hsend, rfl⟩, rfl⟩
  | succ n ih =>
    obtain ⟨msg, left, hleft⟩ := List.exists_cons_of_length_eq_add_one hn
    obtain ⟨t, h', ht, hh', hl', hfree'⟩ := record_step hi hh hleft hfree
    obtain ⟨free', active', hi', -⟩ := pipeStep_inv hi ht
    have hn' : h'.left.length = n := by
      rw [hleft, List.length_cons] at hn
      rw [hl']
      omega
    obtain ⟨u, hu, hnone⟩ := ih hi' hh' hn' hfree'
    refine ⟨u, ?_, hnone⟩
    rw [List.replicate_succ, List.cons_append]
    exact run_cons.mpr ⟨t, ht, hu⟩

/-- Without a new frame the two threads can end the one in hand and make the
call of every record that was acknowledged. -/
theorem pipe_drains (hi : PipeInv s free active) :
    ∃ ms t, (∀ m ∈ ms, m.isRecv = false) ∧ run pipeStep s ms = some t ∧ t.handling = none ∧
      s.acked <+: t.acked ∧ t.sys.calls = (t.acked.filter forHandler).map dispatchCall := by
  obtain ⟨ms, sys, hms, hrun, hfree, -⟩ := handler_drains hi
  obtain ⟨free1, active1, hi1, hgrow1⟩ := pipeRun_inv hi hrun
  -- with the mutex free the frame in hand is brought to its end
  obtain ⟨ms', t, hms', hrun', hnone⟩ : ∃ ms' t, (∀ m ∈ ms', m.isRecv = false) ∧
      run pipeStep { s with sys := sys } ms' = some t ∧ t.handling = none := by
    rcases Option.eq_none_or_eq_some s.handling with hh | ⟨h, hh⟩
    · exact ⟨[], _, fun _ hm => (List.not_mem_nil hm).elim, rfl, hh⟩
    · obtain ⟨t, ht, hnone⟩ := frame_ends hi1 hh rfl hfree
      refine ⟨_, t, ?_, ht, hnone⟩
      intro m hm
      rcases List.mem_append.mp hm with hm | hm
      · rw [List.eq_of_mem_replicate hm]
        rfl
      · rw [List.mem_singleton.mp hm]
        rfl
  obtain ⟨free2, active2, hi2, hgrow2⟩ := pipeRun_inv hi1 hrun'
  obtain ⟨ms'', sys'', hms'', hrun'', -, hcalls⟩ := handler_drains hi2
  refine ⟨ms ++ (ms' ++ ms''), { t with sys := sys'' }, ?_, ?_, hnone, hgrow1.trans hgrow2, ?_⟩
  · intro m hm
    rcases List.mem_append.mp hm with hm | hm
    · exact hms m hm
    · rcases List.mem_append.mp hm with hm | hm
      · exact hms' m hm
      · exact hms'' m hm
  · exact run_append.mpr ⟨_, hrun, run_append.mpr ⟨t, hrun', hrun''⟩⟩
  · rw [hcalls, hi2.posted]
    rfl

end Drain

/-- The moves that receive a frame and answer it. -/
def frameMoves (l : SnsdListener) (frame : Bytes) : List PipeMove :=
  .recv (some l) (some frame) :: (List.replicate (frameRoots frame).1.length .record ++ [.send])

theorem frameMoves_run {p : MsgPool} (hp : p.Holds poolNodes []) (l : SnsdListener)
    (frame : Bytes) (hpos : 0 < frame.length) (hroom : frame.length < snsdMaxBufferLen)
    (hdrop : l.drop = false) : ∃ s, run pipeStep (.start p) (frameMoves l frame) = some s := by
  have hrecv : pipeStep (.start p) (.recv (some l) (some frame)) = some _ :=
    Option.bind_eq_some_iff.mpr ⟨_, recvMove_takes rfl hpos hroom hdrop, rfl⟩
  obtain ⟨free, active, hi, -⟩ := pipeStep_inv (start_pipeInv hp) hrecv
  obtain ⟨s, hs, -⟩ := frame_ends hi rfl (List.length_map _) rfl
  exact ⟨s, run_cons.mpr ⟨_, hrecv, hs⟩⟩

end NvmeSnsd.Server
