import NvmeSnsd.Lib.Run
import NvmeSnsd.Mgt.Carried
import NvmeSnsd.ConnPeon.Task

/-! The poll of the direct connections, and the requests that it makes for a
port. -/
namespace NvmeSnsd.Direct
open Lib Cfg Mgt

/-- `direct_info.state` -/
inductive ConnectState
  | ini
  | connected
  | disconnected
  deriving DecidableEq

/-- A call of `snsd_connect`, else of `snsd_disconnect`, for the port with the
key, and what it returned. -/
structure ConnectCall where
  key : Bytes × Bytes
  connect : Bool
  param : ConnPeon.ConnectParam
  ret : ℤ

/-- What `direct_port_handle` fills in; the port number stays zero. -/
def directParam (p : PortInfo) : ConnPeon.ConnectParam where
  protocol := p.protocol.toUInt32.toNat
  portid := 0
  family := p.family
  traddr := p.tgtip
  hostTraddr := p.ip

/-- A call for the port that returns `ret`. -/
def callFor (p : PortInfo) (connect : Bool) (ret : ℤ) : ConnectCall :=
  ⟨p.key, connect, directParam p, ret⟩

/-- `direct_connect_handle`; `ret` is what the call that it makes returns. -/
def directConnectHandle (ret : ℤ) (net : NetInfo ConnectState) :
    NetInfo ConnectState × List ConnectCall :=
  let running := net.portInfo.flags &&& IFF_RUNNING ≠ 0
  if (net.run = .disconnected ∨ net.run = .ini) ∧ running then
    (if ret ≠ 0 then net else { net with run := .connected }, [callFor net.portInfo true ret])
  else if net.run = .connected ∧ ¬ running then
    (if ret ≠ 0 then net else { net with run := .disconnected }, [callFor net.portInfo false ret])
  else (net, [])

/-- The loop body of `direct_port_handle`. -/
def directPortOne (count : UInt32) (ret : ℤ) (net : NetInfo ConnectState) :
    Option (NetInfo ConnectState) × List ConnectCall :=
  if net.portInfo.count = count then
    let r := directConnectHandle ret net
    (some r.1, r.2)
  else if net.run = .connected then (none, [callFor net.portInfo false ret])
  else (none, [])

/-- `direct_port_handle`; `answer` is what the call for a port returns. -/
def directPortHandle (pton : Pton) (s : CfgState) (sys : NetSystem) (count : UInt32)
    (answer : PortInfo → ℤ) (nets : List (NetInfo ConnectState)) :
    Except Fault (List (NetInfo ConnectState) × List ConnectCall) := do
  let (nets, ret) ← snsdCfgNetInfo pton s .ini .dc sys count nets
  if ret ≠ 0 then return (nets, [])
  return (nets.filterMap fun net => (directPortOne count (answer net.portInfo) net).1,
    nets.flatMap fun net => (directPortOne count (answer net.portInfo) net).2)

/-- The poller of the direct connections, with the calls that it has made. -/
structure DirectRun where
  nets : List (NetInfo ConnectState)
  count : UInt32
  log : List ConnectCall

/-- What the system answers in a poll, and the peon to its requests. -/
structure DirectPoll where
  sys : NetSystem
  answer : PortInfo → ℤ

/-- A poll; none where it ends in a fault. -/
def directStep (pton : Pton) (s : CfgState) (r : DirectRun) (l : DirectPoll) : Option DirectRun :=
  match directPortHandle pton s l.sys r.count l.answer r.nets with
  | .error _ => none
  | .ok (nets, calls) => some ⟨nets, r.count+1, r.log ++ calls⟩

def DirectRun.init (count : UInt32) : DirectRun := ⟨[], count, []⟩

/-- The requests for a port that succeeded: whether each was a connect. -/
def successes (log : List ConnectCall) (k : Bytes × Bytes) : List Bool :=
  (log.filter fun c => c.key = k ∧ c.ret = 0).map (·.connect)

/-- Every request is the opposite of the one before it, and the first connects. -/
def Alternates (l : List Bool) : Prop := Always (fun before b => b = !before.getLastD false) l

/-- The port is listed as connected. -/
def IsConnected (nets : List (NetInfo ConnectState)) (k : Bytes × Bytes) : Prop :=
  HasRun (· = .connected) nets k

@[simp] theorem successes_append (log calls : List ConnectCall) (k : Bytes × Bytes) :
    successes (log ++ calls) k = successes log k ++ successes calls k := by
  simp [successes]

section One
variable {count : UInt32} {ret : ℤ} {net : NetInfo ConnectState}

/-- What the turn of a port does: nothing, or one request that is the opposite of
its state, which a success turns round. -/
inductive OneTurn (count : UInt32) (ret : ℤ) (net : NetInfo ConnectState) :
    Option (NetInfo ConnectState) → List ConnectCall → Prop
  | stays : net.portInfo.count = count → OneTurn count ret net (some net) []
  | fails {b} : net.portInfo.count = count → ret ≠ 0 →
      OneTurn count ret net (some net) [callFor net.portInfo b ret]
  | connects : net.portInfo.count = count → ret = 0 → net.run ≠ .connected →
      OneTurn count ret net (some { net with run := .connected }) [callFor net.portInfo true ret]
  | disconnects : net.portInfo.count = count → ret = 0 → net.run = .connected →
      OneTurn count ret net (some { net with run := .disconnected })
        [callFor net.portInfo false ret]
  | vanishes : net.portInfo.count ≠ count → net.run = .connected →
      OneTurn count ret net none [callFor net.portInfo false ret]
  | forgotten : net.portInfo.count ≠ count → net.run ≠ .connected →
      OneTurn count ret net none []

theorem directPortOne_turn : OneTurn count ret net (directPortOne count ret net).1
    (directPortOne count ret net).2 := by
  unfold directPortOne directConnectHandle
  by_cases hcount : net.portInfo.count = count
  · rw [if_pos hcount]
    dsimp only
    split_ifs with hup hret hdown hret
    · exact .fails hcount hret
    · refine .connects hcount (not_not.mp hret) fun he => ?_
      rcases hup.1 with h | h <;> cases he.symm.trans h
    · exact .fails hcount hret
    · exact .disconnects hcount (not_not.mp hret) hdown.1
    · exact .stays hcount
  · rw [if_neg hcount]
    split_ifs with hrun
    · exact .vanishes hcount hrun
    · exact .forgotten hcount hrun

theorem OneTurn.calls {out : Option (NetInfo ConnectState)} {calls : List ConnectCall}
    (h : OneTurn count ret net out calls) : ∀ c ∈ calls, c.key = net.portInfo.key := by
  intro c hc
  cases h with
  | stays | forgotten => cases hc
  | fails | connects | disconnects | vanishes =>
    obtain rfl := List.mem_singleton.mp hc
    rfl

theorem OneTurn.out_key {x : NetInfo ConnectState} {out : Option (NetInfo ConnectState)}
    {calls : List ConnectCall} (h : OneTurn count ret net out calls) (hx : x ∈ out) :
    x.portInfo.key = net.portInfo.key := by
  cases h with
  | vanishes | forgotten => cases hx
  | stays | fails | connects | disconnects =>
    cases hx
    rfl

theorem successes_callFor (p : PortInfo) (b : Bool) (ret : ℤ) :
    successes [callFor p b ret] p.key = if ret = 0 then [b] else [] := by
  unfold successes callFor
  by_cases h : ret = 0
  · simp [h]
  · simp [h]

/-- A turn goes on with the alternation, unless a disconnect fails for a connected
port that is forgotten. -/
theorem OneTurn.alternates {out : Option (NetInfo ConnectState)} {calls : List ConnectCall}
    (h : OneTurn count ret net out calls) {before : List Bool} (ha : Alternates before)
    (hlast : net.run = .connected ↔ before.getLastD false = true)
    (hok : net.portInfo.count ≠ count → net.run = .connected → ret = 0) :
    Alternates (before ++ successes calls net.portInfo.key) ∧
      ((∃ x ∈ out, x.run = .connected) ↔
        (before ++ successes calls net.portInfo.key).getLastD false = true) := by
  have hnone : successes [] net.portInfo.key = [] := rfl
  cases h with
  | stays =>
    rw [hnone, List.append_nil]
    exact ⟨ha, by simpa using hlast⟩
  | fails hcount hret =>
    rw [successes_callFor, if_neg hret, List.append_nil]
    exact ⟨ha, by simpa using hlast⟩
  | connects hcount hret hrun =>
    have hfalse : before.getLastD false = false :=
      Bool.eq_false_iff.mpr fun h => hrun (hlast.mpr h)
    rw [successes_callFor, if_pos hret]
    refine ⟨ha.concat ?_, ?_⟩
    · rw [hfalse, Bool.not_false]
    · simp
  | disconnects hcount hret hrun =>
    rw [successes_callFor, if_pos hret]
    refine ⟨ha.concat ?_, ?_⟩
    · rw [hlast.mp hrun, Bool.not_true]
    · simp
  | vanishes hcount hrun =>
    rw [successes_callFor, if_pos (hok hcount hrun)]
    refine ⟨ha.concat ?_, ?_⟩
    · rw [hlast.mp hrun, Bool.not_true]
    · simp
  | forgotten hcount hrun =>
    rw [hnone, List.append_nil]
    refine ⟨ha, ?_⟩
    rw [← hlast]
    simp [hrun]

end One

section Pass
variable {count : UInt32} {answer : PortInfo → ℤ} {nets : List (NetInfo ConnectState)}
  {k : Bytes × Bytes}

/-- The calls of a pass, as far as one port goes, are those of its turn. -/
theorem successes_pass (hnodup : (keys nets).Nodup) {net : NetInfo ConnectState}
    (hnet : net ∈ nets) :
    successes (nets.flatMap fun x => (directPortOne count (answer x.portInfo) x).2)
        net.portInfo.key =
      successes (directPortOne count (answer net.portInfo) net).2 net.portInfo.key := by
  obtain ⟨pre, post, rfl⟩ := List.append_of_mem hnet
  have hother (l : List (NetInfo ConnectState))
      (hl : ∀ x ∈ l, x.portInfo.key ≠ net.portInfo.key) :
      successes (l.flatMap fun x => (directPortOne count (answer x.portInfo) x).2)
        net.portInfo.key = [] := by
    unfold successes
    rw [List.filter_eq_nil_iff.mpr, List.map_nil]
    intro c hc
    obtain ⟨x, hx, hcx⟩ := List.mem_flatMap.mp hc
    have hkey := directPortOne_turn.calls c hcx
    simp [hkey, hl x hx]
  rw [keys, List.map_append, List.map_cons, List.nodup_append] at hnodup
  obtain ⟨-, hpost, hpre⟩ := hnodup
  rw [List.flatMap_append, List.flatMap_cons, successes_append, successes_append,
    hother pre, hother post, List.nil_append, List.append_nil]
  · intro x hx he
    exact (List.nodup_cons.mp hpost).1 (he ▸ List.mem_map_of_mem hx)
  · exact fun x hx => hpre _ (List.mem_map_of_mem hx) _ List.mem_cons_self

theorem successes_pass_none (h : k ∉ keys nets) :
    successes (nets.flatMap fun x => (directPortOne count (answer x.portInfo) x).2) k = [] := by
  unfold successes
  rw [List.filter_eq_nil_iff.mpr, List.map_nil]
  intro c hc
  obtain ⟨x, hx, hcx⟩ := List.mem_flatMap.mp hc
  have hkey := directPortOne_turn.calls c hcx
  have hne : x.portInfo.key ≠ k := fun he => h (he ▸ List.mem_map_of_mem hx)
  simp [hkey, hne]

theorem keys_pass : (keys (nets.filterMap fun x =>
    (directPortOne count (answer x.portInfo) x).1)).Sublist (keys nets) :=
  keys_filterMap fun _ _ h => directPortOne_turn.out_key h

theorem isConnected_pass (hnodup : (keys nets).Nodup) {net : NetInfo ConnectState}
    (hnet : net ∈ nets) :
    IsConnected (nets.filterMap fun x => (directPortOne count (answer x.portInfo) x).1)
        net.portInfo.key ↔
      ∃ x ∈ (directPortOne count (answer net.portInfo) net).1, x.run = .connected := by
  constructor
  · intro ⟨x, hx, hkey, hrun⟩
    obtain ⟨y, hy, hxy⟩ := List.mem_filterMap.mp hx
    have hyk : y.portInfo.key = net.portInfo.key := (directPortOne_turn.out_key hxy).symm.trans hkey
    obtain rfl := eq_of_key hnodup hy hnet hyk
    exact ⟨x, hxy, hrun⟩
  · intro ⟨x, hx, hrun⟩
    exact ⟨x, List.mem_filterMap.mpr ⟨net, hnet, hx⟩, directPortOne_turn.out_key hx, hrun⟩

/-- The pass over the ports goes on with every alternation. -/
theorem pass_alternates (hnodup : (keys nets).Nodup) {log : List ConnectCall}
    (ha : ∀ k, Alternates (successes log k))
    (hlast : ∀ k, IsConnected nets k ↔ (successes log k).getLastD false = true)
    (hok : ∀ net ∈ nets, net.portInfo.count ≠ count → net.run = .connected →
      answer net.portInfo = 0) (k : Bytes × Bytes) :
    let after := successes
      (log ++ nets.flatMap fun x => (directPortOne count (answer x.portInfo) x).2) k
    Alternates after ∧
      (IsConnected (nets.filterMap fun x => (directPortOne count (answer x.portInfo) x).1) k ↔
        after.getLastD false = true) := by
  dsimp only
  rw [successes_append]
  by_cases hk : k ∈ keys nets
  · obtain ⟨net, hnet, rfl⟩ := mem_keys.mp hk
    have hrun : net.run = .connected ↔ (successes log net.portInfo.key).getLastD false = true := by
      rw [← hlast]
      constructor
      · exact fun h => ⟨net, hnet, rfl, h⟩
      · intro ⟨x, hx, hkey, h⟩
        exact eq_of_key hnodup hx hnet hkey ▸ h
    rw [successes_pass hnodup hnet, isConnected_pass hnodup hnet]
    exact directPortOne_turn.alternates (ha _) hrun (hok net hnet)
  · have hgone : ¬ IsConnected nets k := fun ⟨x, hx, hkey, _⟩ => hk (mem_keys.mpr ⟨x, hx, hkey⟩)
    rw [successes_pass_none hk, List.append_nil, ← hlast]
    refine ⟨ha k, fun h => ?_, fun h => absurd h hgone⟩
    obtain ⟨x, hx, hkey, -⟩ := h
    exact absurd (keys_pass.subset (mem_keys.mpr ⟨x, hx, hkey⟩)) hk

end Pass

section Run
variable {pton : Pton} {s : CfgState} {r r' : DirectRun} {l : DirectPoll}

/-- A connected port that the poll does not count is disconnected with success, and
none that is still new has the count of the poll before it. -/
structure DirectOk (pton : Pton) (s : CfgState) (r : DirectRun) (l : DirectPoll) : Prop where
  vanish : ∀ polled,
    snsdCfgNetInfo pton s ConnectState.ini .dc l.sys r.count r.nets = .ok (polled, 0) →
      ∀ net ∈ polled, net.portInfo.count ≠ r.count → net.run = .connected →
        l.answer net.portInfo = 0
  fresh : ∀ net ∈ r.nets, net.run = .connected → net.portInfo.newPort = true →
    net.portInfo.count ≠ r.count

/-- What holds between two polls. -/
structure DirectInv (pton : Pton) (s : CfgState) (r : DirectRun) : Prop where
  nodup : (keys r.nets).Nodup
  taken : ∀ net ∈ r.nets, net.run = .connected → Taken pton s .dc net.portInfo.key
  alternates : ∀ k, Alternates (successes r.log k)
  connected : ∀ k, IsConnected r.nets k ↔ (successes r.log k).getLastD false = true

theorem directStep_cases (h : directStep pton s r l = some r') :
    ∃ polled ret, snsdCfgNetInfo pton s ConnectState.ini .dc l.sys r.count r.nets =
        .ok (polled, ret) ∧
      ((ret ≠ 0 ∧ r' = ⟨polled, r.count+1, r.log⟩) ∨
        (ret = 0 ∧ r' = ⟨polled.filterMap fun x =>
            (directPortOne r.count (l.answer x.portInfo) x).1, r.count+1,
          r.log ++ polled.flatMap fun x =>
            (directPortOne r.count (l.answer x.portInfo) x).2⟩)) := by
  unfold directStep at h
  split at h
  · cases h
  · next nets calls hhandle =>
    unfold directPortHandle at hhandle
    obtain ⟨⟨polled, ret⟩, hpoll, hhandle⟩ := bind_eq_ok.mp hhandle
    refine ⟨polled, ret, hpoll, ?_⟩
    dsimp only at hhandle
    split at hhandle
    · next hr =>
      cases hhandle
      cases h
      rw [List.append_nil]
      exact Or.inl ⟨hr, rfl⟩
    · next hr =>
      cases hhandle
      cases h
      exact Or.inr ⟨not_not.mp hr, rfl⟩

theorem directInv_step (hi : DirectInv pton s r) (hok : DirectOk pton s r l)
    (h : directStep pton s r l = some r') : DirectInv pton s r' := by
  obtain ⟨polled, ret, hpoll, hends⟩ := directStep_cases h
  obtain ⟨hnodup, hrun, htaken⟩ := cfgNetInfo_hasRun (P := (· = .connected)) hi.nodup
    (by decide) hi.taken hok.fresh hpoll
  have hconnected (k : Bytes × Bytes) :
      IsConnected polled k ↔ (successes r.log k).getLastD false = true :=
    (hrun k).trans (hi.connected k)
  rcases hends with ⟨-, rfl⟩ | ⟨rfl, rfl⟩
  · refine ⟨hnodup, fun net hnet hc => ?_, hi.alternates, hconnected⟩
    obtain ⟨old, hold, hkey, hc'⟩ := (hrun net.portInfo.key).mp ⟨net, hnet, rfl, hc⟩
    exact hkey ▸ hi.taken old hold hc'
  · have hpass := pass_alternates hnodup hi.alternates hconnected (hok.vanish polled hpoll)
    refine ⟨hnodup.sublist keys_pass, fun net hnet _ => ?_, fun k => (hpass k).1,
      fun k => (hpass k).2⟩
    obtain ⟨old, hold, hone⟩ := List.mem_filterMap.mp hnet
    rw [directPortOne_turn.out_key hone]
    exact htaken rfl old hold

theorem directInv_init (count : UInt32) : DirectInv pton s (DirectRun.init count) := by
  refine ⟨List.nodup_nil, nofun, fun k => always_nil, fun k => ?_⟩
  constructor
  · intro ⟨net, hnet, _⟩
    cases hnet
  · intro h
    cases h

theorem directRun_inv {count : UInt32} {ls : List DirectPoll}
    (hok : RunMeets (directStep pton s) (DirectOk pton s) (DirectRun.init count) ls)
    (hr : run (directStep pton s) (DirectRun.init count) ls = some r) : DirectInv pton s r := by
  apply run_meets_invariant (I := DirectInv pton s) _ (directInv_init count) hok hr
  exact fun r l r' hi hok h => directInv_step hi hok h

/-- The successful requests for a port alternate, and in a further poll a connected
port is forgotten only with a disconnect that succeeds. -/
theorem requests_alternate (count : UInt32) (ls : List DirectPoll)
    (hok : RunMeets (directStep pton s) (DirectOk pton s) (DirectRun.init count) ls)
    (hr : run (directStep pton s) (DirectRun.init count) ls = some r) :
    (∀ k, Alternates (successes r.log k)) ∧
      ∀ l r', DirectOk pton s r l → directStep pton s r l = some r' →
        ∀ k, IsConnected r.nets k → k ∉ keys r'.nets →
          ∃ calls, r'.log = r.log ++ calls ∧
            ∃ c ∈ calls, c.key = k ∧ c.connect = false ∧ c.ret = 0 := by
  have hi := directRun_inv hok hr
  refine ⟨hi.alternates, fun l r' hl h k hk hgone => ?_⟩
  obtain ⟨polled, ret, hpoll, hends⟩ := directStep_cases h
  obtain ⟨hnodup, hrun, -⟩ := cfgNetInfo_hasRun (P := (· = .connected)) hi.nodup
    (by decide) hi.taken hl.fresh hpoll
  obtain ⟨net, hnet, rfl, hc⟩ := (hrun k).mpr hk
  rcases hends with ⟨-, rfl⟩ | ⟨rfl, rfl⟩
  · exact absurd (List.mem_map_of_mem hnet) hgone
  · refine ⟨_, rfl, ?_⟩
    have hturn : OneTurn r.count (l.answer net.portInfo) net
        (directPortOne r.count (l.answer net.portInfo) net).1
        (directPortOne r.count (l.answer net.portInfo) net).2 := directPortOne_turn
    have hcall (c : ConnectCall)
        (hmem : c ∈ (directPortOne r.count (l.answer net.portInfo) net).2) :
        c ∈ polled.flatMap fun x => (directPortOne r.count (l.answer x.portInfo) x).2 :=
      List.mem_flatMap.mpr ⟨net, hnet, hmem⟩
    by_cases hcount : net.portInfo.count = r.count
    · -- a port of this poll keeps its entry
      have hkept : ∃ x, (directPortOne r.count (l.answer net.portInfo) net).1 = some x := by
        unfold directPortOne
        rw [if_pos hcount]
        exact ⟨_, rfl⟩
      obtain ⟨x, hx⟩ := hkept
      refine absurd (mem_keys.mpr ⟨x, List.mem_filterMap.mpr ⟨net, hnet, hx⟩, ?_⟩) hgone
      exact directPortOne_turn.out_key hx
    · refine ⟨callFor net.portInfo false (l.answer net.portInfo), hcall _ ?_, rfl, rfl,
        hl.vanish polled hpoll net hnet hcount hc⟩
      unfold directPortOne
      rw [if_neg hcount, if_pos hc]
      exact List.mem_singleton_self _

end Run

/-! One direct connection, whose interface comes up and then is gone. -/

def directPton : Pton := fun _ text =>
  if text = ascii "10.0.0.1" then some [10, 0, 0, 1]
  else if text = ascii "10.0.0.2" then some [10, 0, 0, 2]
  else none

def directEntry : CfgInfos :=
  ⟨(CfgFields.zero.setStr .hostTraddr (CStr.clip (StrField.size_pos .hostTraddr)
      (ascii "10.0.0.1"))).setStr .traddr
    (CStr.clip (StrField.size_pos .traddr) (ascii "10.0.0.2")), .dc⟩

def directCfg : CfgState := { clearState with dcInfoList := [directEntry] }

def goneSystem : NetSystem := { sampleSystem with ifconf := some [] }

/-- After the first poll: the port is connected. -/
def directUp : DirectRun :=
  (directStep directPton directCfg (DirectRun.init 100) ⟨sampleSystem, fun _ => 0⟩).getD
    (DirectRun.init 100)

theorem directUp_step : directStep directPton directCfg (DirectRun.init 100)
    ⟨sampleSystem, fun _ => 0⟩ = some directUp := rfl

theorem directUp_ports : (directUp.nets.all fun net => decide
    (net.portInfo.count ≠ directUp.count ∧ net.run = .connected)) = true := by
  decide +kernel

/-- The requests of a run in which the interface is gone and the disconnect succeeds. -/
theorem requests_alternate_sample :
    ∃ r, run (directStep directPton directCfg) (DirectRun.init 100)
        [⟨sampleSystem, fun _ => 0⟩, ⟨goneSystem, fun _ => 0⟩] = some r ∧
      ∀ k, Alternates (successes r.log k) := by
  obtain ⟨r, hr⟩ : ∃ r, run (directStep directPton directCfg) (DirectRun.init 100)
      [⟨sampleSystem, fun _ => 0⟩, ⟨goneSystem, fun _ => 0⟩] = some r := ⟨_, rfl⟩
  refine ⟨r, hr, (requests_alternate 100 _ ?_ hr).1⟩
  refine RunMeets.cons ⟨fun _ _ _ _ _ _ => rfl, nofun⟩ directUp_step ⟨⟨?_, ?_⟩, fun _ _ => trivial⟩
  · exact fun _ _ _ _ _ _ => rfl
  · intro net hnet _ _
    exact (of_decide_eq_true (List.all_eq_true.mp directUp_ports net hnet)).1

/-- The disconnect fails, and the connected port is forgotten all the same. -/
theorem failed_disconnect_forgets : ¬ ∀ (pton : Pton) (s : CfgState) (count : UInt32)
    (ls : List DirectPoll) (r : DirectRun),
    run (directStep pton s) (DirectRun.init count) ls = some r →
      (∀ k, Alternates (successes r.log k)) ∧
        ∀ l r', directStep pton s r l = some r' → ∀ k, IsConnected r.nets k → k ∉ keys r'.nets →
          ∃ calls, r'.log = r.log ++ calls ∧
            ∃ c ∈ calls, c.key = k ∧ c.connect = false ∧ c.ret = 0 := by
  intro h
  have hrun : run (directStep directPton directCfg) (DirectRun.init 100)
      [⟨sampleSystem, fun _ => 0⟩] = some directUp := run_cons.mpr ⟨_, directUp_step, rfl⟩
  obtain ⟨net, hnet⟩ : ∃ net, directUp.nets.head? = some net := ⟨_, rfl⟩
  have hmem := List.mem_of_head? hnet
  have hc := (of_decide_eq_true (List.all_eq_true.mp directUp_ports net hmem)).2
  obtain ⟨r', hstep, hnone, hlog⟩ : ∃ r', directStep directPton directCfg directUp
      ⟨goneSystem, fun _ => -EPERM⟩ = some r' ∧ r'.nets.isEmpty = true ∧
        (r'.log.drop directUp.log.length).all (fun c => c.ret = -EPERM) = true :=
    ⟨_, rfl, rfl, rfl⟩
  obtain ⟨calls, hcalls, c, hmem', -, -, hret⟩ :=
    (h _ _ _ _ _ hrun).2 _ _ hstep _ ⟨net, hmem, rfl, hc⟩ (by
      rw [List.isEmpty_iff.mp hnone]
      exact List.not_mem_nil)
  rw [hcalls, List.drop_left] at hlog
  have hfail := of_decide_eq_true (List.all_eq_true.mp hlog c hmem')
  exact absurd (hret.symm.trans hfail) (by decide)

end NvmeSnsd.Direct
