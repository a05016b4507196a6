import NvmeSnsd.Server.LastField
import NvmeSnsd.Server.PoolSpec

/-! What a queued notification makes the handler thread ask for, against the
state and the reason that were sent. -/
namespace NvmeSnsd.Server
open Lib

/-- An address in the parameters of a request. -/
def paramAddr (ip : Bytes) : Mem 16 := (Mem.zero 16).write 0 ip

def forcedReason (reason : ℕ) : Bool :=
  reason == notifyReasonChangeZone || reason == notifyReasonChangeIp ||
    reason == notifyReasonLldpAgeOut

/-- The request that the values sent stand for. -/
def sentAction (state reason : ℕ) (param : SnsdConnectParam) : Option ConnectCall :=
  if state = notifyHostActive then some (.snsdConnect param)
  else if state = notifyHostInactive then
    some (.snsdDisconnect
      { param with actionFlag := if forcedReason reason then snsdDisconnectForcedly else 0 })
  else none

/-- The call asks for what was sent, from the destination to the source. -/
def ActsAsSent (ver : ℕ) (subs : List Tlv) (c : DispatchCall) : Prop :=
  ∃ (v6 : Bool) (param : SnsdConnectParam), (lastOk ver (dstType v6) subs).isSome ∧
    param.hostTraddr = paramAddr (lastValue ver (dstType v6) (addrLength v6) subs) ∧
    param.traddr = paramAddr (lastValue ver (srcType v6) (addrLength v6) subs) ∧
    param.actionFlag = 0 ∧
    c.perform = .ok (sentAction (lastWord ver 6 subs) (lastWord ver 7 subs) param)

/-- The state fits the byte it is compared in, or is no state there either. -/
def StateFits (ver : ℕ) (subs : List Tlv) : Prop :=
  lastWord ver 6 subs < 2^8 ∨
    (lastWord ver 6 subs%2^8 ≠ notifyHostActive ∧ lastWord ver 6 subs%2^8 ≠ notifyHostInactive)

section Record
variable {ver : ℕ} {subs : List Tlv}

theorem recordOf_addrs {v6 : Bool} (hone : OneFamily ver v6 subs)
    (hfam : (recordOf ver subs).family = familyOf v6) :
    (recordOf ver subs).host = paramAddr (lastValue ver (dstType v6) (addrLength v6) subs) ∧
      (recordOf ver subs).target =
        paramAddr (lastValue ver (srcType v6) (addrLength v6) subs) := by
  rw [← recordOf_dst hone, ← recordOf_src hone]
  unfold NtMsg.host NtMsg.target NtMsg.padded paramAddr
  rw [hfam]
  cases v6 <;> exact ⟨rfl, rfl⟩

/-- The low byte of the state decides. -/
theorem perform_recordOf {v6 : Bool} (hone : OneFamily ver v6 subs)
    (hfam : (recordOf ver subs).family = familyOf v6) :
    ∃ param : SnsdConnectParam,
      param.hostTraddr = paramAddr (lastValue ver (dstType v6) (addrLength v6) subs) ∧
      param.traddr = paramAddr (lastValue ver (srcType v6) (addrLength v6) subs) ∧
      param.actionFlag = 0 ∧
      (dispatchCall (recordOf ver subs)).perform =
        .ok (sentAction (lastWord ver 6 subs%2^8) (lastWord ver 7 subs) param) := by
  obtain ⟨hhost, htarget⟩ := recordOf_addrs hone hfam
  obtain ⟨param, hp, ht, hflag, hspec⟩ :=
    connectChange_spec (recordOf ver subs) (lastWord ver 6 subs%2^8)
  refine ⟨param, hp.trans hhost, ht.trans htarget, hflag, ?_⟩
  have hforced : (recordOf ver subs).forced = forcedReason (lastWord ver 7 subs) := by
    rw [NtMsg.forced, recordOf_ntReason]
    rfl
  rw [hforced] at hspec
  rw [dispatchCall, recordOf_state]
  by_cases hactive : lastWord ver 6 subs%2^8 = notifyHostActive
  · rw [if_pos (Or.inl hactive), DispatchCall.perform, hspec, if_pos hactive, sentAction,
      if_pos hactive]
    rfl
  · by_cases hinactive : lastWord ver 6 subs%2^8 = notifyHostInactive
    · rw [if_pos (Or.inr hinactive), DispatchCall.perform, hspec, if_neg hactive, sentAction,
        if_neg hactive, if_pos hinactive]
      rfl
    · rw [if_neg (not_or.mpr ⟨hactive, hinactive⟩), sentAction, if_neg hactive, if_neg hinactive]
      rfl

end Record

/-- Truncation keeps the action exactly of the states that fit. -/
theorem sentAction_truncated {w reason : ℕ} {p q : SnsdConnectParam}
    (h : sentAction (w%2^8) reason p = sentAction w reason q) :
    w < 2^8 ∨ (w%2^8 ≠ notifyHostActive ∧ w%2^8 ≠ notifyHostInactive) := by
  unfold sentAction at h
  have hact : notifyHostActive = 1 := rfl
  have hinact : notifyHostInactive = 0 := rfl
  by_cases h1 : w = notifyHostActive
  · omega
  by_cases h0 : w = notifyHostInactive
  · omega
  rw [if_neg h1, if_neg h0] at h
  refine Or.inr ⟨fun ht => ?_, fun ht => ?_⟩
  · rw [if_pos ht] at h
    cases h
  · rw [if_neg (by omega), if_pos ht] at h
    cases h

/-- The calls made so far are those of the posted records, one by one. -/
theorem call_of_posted {alloc : ℕ → Bool} {p : MsgPool}
    (hinit : snsdInitMsgResource alloc = some p) {events : List PoolEvent} {s : PoolSys}
    (hrun : poolRun (.start p) events = some s) {i : ℕ} {m : NtMsg} {c : DispatchCall}
    (hposted : s.posted[i]? = some m) (hcall : s.calls[i]? = some c) : c = dispatchCall m := by
  obtain ⟨free, active, h⟩ := poolRun_inv (start_inv (initMsgResource_holds hinit)) hrun
  have hi : i < s.calls.length := (List.getElem?_eq_some_iff.mp hcall).1
  have hboth := congrArg (·[i]?) h.history
  simp only [List.getElem?_append_left hi, hcall, List.getElem?_map, hposted, Option.map_some,
    Option.some.injEq] at hboth
  exact hboth

/-- A record that was decoded, complete and queued is acted upon as it was sent
exactly when its state fits. -/
theorem dispatched_as_sent_iff {ver : ℕ} {buf : Ptr} {len : ℕ}
    (hbuf : buf.off+len ≤ buf.mem.length) (hlen : len < 2^31) {msgs : List NtMsg}
    (hmsgs : dealtMsgs buf len ver = .ok msgs) {j : ℕ} {m : NtMsg} (hj : msgs[j]? = some m)
    (hm : snsdCheckMsgComplete m.map = true) {alloc : ℕ → Bool} {p : MsgPool}
    (hinit : snsdInitMsgResource alloc = some p) {events : List PoolEvent} {s : PoolSys}
    (hrun : poolRun (.start p) events = some s) {i : ℕ} {c : DispatchCall}
    (hposted : s.posted[i]? = some m) (hcall : s.calls[i]? = some c) :
    ∃ root, (rootTlvs (buf.rest.take len))[j]? = some root ∧
      (ActsAsSent ver (subTlvs root) c ↔ StateFits ver (subTlvs root)) := by
  obtain rfl := call_of_posted hinit hrun hposted hcall
  rw [dealtMsgs_eq buf hbuf hlen] at hmsgs
  obtain rfl := Except.ok.inj hmsgs
  rw [grammarMsgs, List.getElem?_map, Option.map_eq_some_iff] at hj
  obtain ⟨root, hroot, rfl⟩ := hj
  refine ⟨root, hroot, ?_⟩
  obtain ⟨v6, src, dst, seq, h⟩ := complete_parts hm
  obtain ⟨param, hhost, htarget, hflag, hperform⟩ := perform_recordOf h.oneFamily h.family
  constructor
  · rintro ⟨_, q, -, -, -, -, hq⟩
    rw [hperform] at hq
    exact sentAction_truncated (Except.ok.inj hq)
  · intro hfits
    refine ⟨v6, param, by rw [h.dst_last]; rfl, hhost, htarget, hflag, ?_⟩
    rw [hperform]
    rcases hfits with hlt | ⟨h1, h0⟩
    · rw [Nat.mod_eq_of_lt hlt]
    · have hw1 : lastWord ver 6 (subTlvs root) ≠ notifyHostActive := fun he => h1 (by rw [he]; rfl)
      have hw0 : lastWord ver 6 (subTlvs root) ≠ notifyHostInactive := fun he => h0 (by rw [he]; rfl)
      rw [sentAction, if_neg h1, if_neg h0, sentAction, if_neg hw1, if_neg hw0]

/-! One record through the queue. -/

theorem queue_one {m : NtMsg} (hrole : m.roleType ≠ snsdClient) :
    ∃ p events s, snsdInitMsgResource (fun _ => true) = some p ∧
      poolRun (.start p) events = some s ∧ s.posted = [m] ∧ s.calls = [dispatchCall m] := by
  obtain ⟨p, hp⟩ := initMsgResource_ok
  have hholds := initMsgResource_holds hp
  have hnodes : poolNodes = .node 0 :: ((List.range (snsdMaxMsgNum-1)).map (· + 1)).map .node := by
    have hsucc : snsdMaxMsgNum = (snsdMaxMsgNum-1)+1 := rfl
    rw [poolNodes, hsucc, List.range_succ_eq_map]
    rfl
  rw [hnodes] at hholds
  obtain ⟨q, hq, -⟩ := post_free hholds hrole
  have hpost : poolRun (.start p) [.post m] = some ⟨q, none, [m], []⟩ := by
    rw [poolRun, List.foldlM_cons]
    simp only [poolStep, PoolSys.start, if_neg hrole, hq]
    rfl
  obtain ⟨free, active, hinv⟩ := poolRun_inv (start_inv (initMsgResource_holds hp)) hpost
  obtain ⟨moves, s, -, hmoves, hcalls, hposted⟩ := dispatch_completes hinv
  refine ⟨p, .post m :: moves, s, hp, ?_, hposted, hcalls⟩
  have hboth : List.foldlM poolStep (PoolSys.start p) ([.post m] ++ moves) =
      (List.foldlM poolStep (PoolSys.start p) [.post m]).bind fun t => List.foldlM poolStep t moves :=
    List.foldlM_append
  rw [List.singleton_append] at hboth
  rw [poolRun, hboth]
  change (poolRun (.start p) [.post m]).bind (fun t => poolRun t moves) = some s
  rw [hpost]
  exact hmoves

theorem dispatched_as_sent_sample :
    ∃ root, (rootTlvs ((⟨sampleRoot.encode, 0⟩ : Ptr).rest.take sampleRoot.encode.length))[0]? =
        some root ∧
      (ActsAsSent 0 (subTlvs root) (dispatchCall sampleNotification.record) ↔
        StateFits 0 (subTlvs root)) := by
  have hrole : sampleNotification.record.roleType ≠ snsdClient := by decide +kernel
  obtain ⟨p, events, s, hinit, hrun, hposted, hcalls⟩ := queue_one hrole
  exact dispatched_as_sent_iff (by decide) (by decide) dealtMsgs_sample rfl (by decide) hinit hrun
    (congrArg (·[0]?) hposted) (congrArg (·[0]?) hcalls)

/-- State 257 in version 1: it is no state, and its low byte is the active one. -/
def wideNotification : Notification 1 where
  v6 := false
  src := [10, 0, 0, 3]
  dst := [10, 0, 0, 4]
  seq := [0, 0, 0, 7]
  state := [0, 0, 1, 1]
  reason := [0, 0, 0, 4]
  adInfo := [1, 2, 0, 0, 0x11, 0x51]
  src_length := rfl
  dst_length := rfl
  seq_length := rfl
  state_length := rfl
  reason_length := rfl
  adInfo_length := by decide

def wideRoot : Tlv := ⟨0x21, wideNotification.subs.flatMap Tlv.encode⟩

theorem wide_state_connects :
    dealtMsgs ⟨wideRoot.encode, 0⟩ wideRoot.encode.length 1 =
        .ok [recordOf 1 (subTlvs wideRoot)] ∧
      snsdCheckMsgComplete (recordOf 1 (subTlvs wideRoot)).map = true ∧
      (∃ p events s, snsdInitMsgResource (fun _ => true) = some p ∧
        poolRun (.start p) events = some s ∧ s.posted = [recordOf 1 (subTlvs wideRoot)] ∧
        s.calls = [dispatchCall (recordOf 1 (subTlvs wideRoot))]) ∧
      lastWord 1 6 (subTlvs wideRoot) = 257 ∧
      (∃ param, (dispatchCall (recordOf 1 (subTlvs wideRoot))).perform =
        .ok (some (.snsdConnect param))) ∧
      ¬ ActsAsSent 1 (subTlvs wideRoot) (dispatchCall (recordOf 1 (subTlvs wideRoot))) := by
  have hroots : rootTlvs wideRoot.encode = [wideRoot] := by decide +kernel
  have hstate : lastWord 1 6 (subTlvs wideRoot) = 257 := by decide +kernel
  have hcomplete : snsdCheckMsgComplete (recordOf 1 (subTlvs wideRoot)).map = true := by
    decide +kernel
  obtain ⟨v6, src, dst, seq, h⟩ := complete_parts hcomplete
  obtain ⟨param, -, -, -, hperform⟩ := perform_recordOf h.oneFamily h.family
  rw [hstate] at hperform
  have hconnect : (dispatchCall (recordOf 1 (subTlvs wideRoot))).perform =
      .ok (some (.snsdConnect param)) := hperform
  refine ⟨?_, hcomplete, queue_one (by decide +kernel), hstate, ⟨param, hconnect⟩, ?_⟩
  · rw [dealtMsgs_eq _ (by simp) (by decide), Ptr.rest, List.drop_zero, List.take_length, grammarMsgs,
      hroots]
    rfl
  · rintro ⟨_, q, -, -, -, -, hq⟩
    rw [hconnect, hstate] at hq
    cases Except.ok.inj hq

end NvmeSnsd.Server
