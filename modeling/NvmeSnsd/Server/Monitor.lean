import NvmeSnsd.Server.Incarnation

/-! When a listener starts and stops dropping frames, against the messages
that were counted for it. -/
namespace NvmeSnsd.Server
open Lib
attribute [local irreducible] firstIdx

/-- What an observer of one slot remembers: the messages since the last sample,
and how many samples below the threshold came last without a break. -/
structure SampleLog where
  count : ℕ
  quiet : ℕ
  deriving DecidableEq

/-- The monitor looks at the counts. -/
def IsSample (t : SnsdListenerInfo) : ListenerEvent → Prop
  | .detect now => ¬ now-t.lastSempTime < snsdDetectPeriod
  | _ => False

def sampled (g : SampleLog) : SampleLog :=
  ⟨0, if g.count < snsdAttackThreshold then g.quiet+1 else 0⟩

def watch (i : Fin snsdMaxListener) (t : SnsdListenerInfo) (g : SampleLog) :
    ListenerEvent → SampleLog
  | .receive fd => if t.find fd = some i then { g with count := g.count+1 } else g
  | .detect now => if now-t.lastSempTime < snsdDetectPeriod then g else sampled g
  | .update _ _ _ _ => g

/-- A table under observation. -/
abbrev Observed := SnsdListenerInfo × SampleLog

def observe (i : Fin snsdMaxListener) (s : Observed) (e : ListenerEvent) : Observed :=
  (listenerStep s.1 e, watch i s.1 s.2 e)

def dropping (i : Fin snsdMaxListener) (s : Observed) : Bool := (s.1.listener.get i).dropMonitor.drop

/-- A listener starts dropping exactly at a sample that reaches the threshold,
and stops exactly at the one that completes the quiet samples of a recovery. -/
structure DropLaw (i : Fin snsdMaxListener) (s : Observed) (e : ListenerEvent) : Prop where
  enters : (dropping i s = false ∧ dropping i (observe i s e) = true) ↔
    IsSample s.1 e ∧ dropping i s = false ∧ snsdAttackThreshold ≤ s.2.count
  leaves : (dropping i s = true ∧ dropping i (observe i s e) = false) ↔
    IsSample s.1 e ∧ dropping i s = true ∧
      (observe i s e).2.quiet = snsdAttackRecoveryPeriod+1

/-- No attack interrupts a recovery, and the counter does not wrap. -/
def Unbroken (i : Fin snsdMaxListener) (s : Observed) (e : ListenerEvent) : Prop :=
  IsSample s.1 e →
    (dropping i s = true → snsdAttackThreshold ≤ s.2.count → s.2.quiet = 0) ∧
      (s.1.listener.get i).smp.lastSampCnt+s.2.count < 2^64

/-- The counter counts, and the interval of a drop is its quiet samples. -/
structure MonitorInv (i : Fin snsdMaxListener) (s : Observed) : Prop where
  counter : (s.1.listener.get i).smp.rcvCnt = u64 ((s.1.listener.get i).smp.lastSampCnt+s.2.count)
  interval : dropping i s = true →
    (s.1.listener.get i).dropMonitor.dropInterval = s.2.quiet ∧ s.2.quiet ≤ snsdAttackRecoveryPeriod

/-! One monitor. -/

section Change
variable {m : SnsdAttackMonitor} {q : ℕ}

theorem stateChange_attack (h : m.drop = false) : snsdListenerStateChange m true = ⟨true, 0⟩ := by
  simp [snsdListenerStateChange, h]

theorem stateChange_same : snsdListenerStateChange m m.drop = m := by
  simp [snsdListenerStateChange]

theorem stateChange_quiet (h : m.drop = true) (hq : m.dropInterval = q)
    (hle : q ≤ snsdAttackRecoveryPeriod) :
    snsdListenerStateChange m false = ⟨decide (q < snsdAttackRecoveryPeriod), q+1⟩ := by
  have hwrap : u32 (q+1) = q+1 := by
    apply u32_of_lt
    have hr : snsdAttackRecoveryPeriod = 20 := by decide
    omega
  unfold snsdListenerStateChange
  simp only [h, hq, hwrap]
  rcases hle.lt_or_eq with hlt | rfl
  · simp [hlt, Nat.not_lt.mpr (Nat.succ_le_of_lt hlt)]
  · simp

end Change

/-- A sample sees the messages since the one before. -/
theorem listenerSample_monitor {l : SnsdListenerSlot} {n : ℕ}
    (hcnt : l.smp.rcvCnt = u64 (l.smp.lastSampCnt+n)) (hn : l.smp.lastSampCnt+n < 2^64) :
    (listenerSample snsdAttackThreshold l).dropMonitor =
      snsdListenerStateChange l.dropMonitor (decide (snsdAttackThreshold ≤ n)) := by
  have hcur : l.smp.rcvCnt = l.smp.lastSampCnt+n := hcnt.trans (Nat.mod_eq_of_lt hn)
  have hpos : snsdAttackThreshold = 500 := by decide
  unfold listenerSample
  simp only [hcur, Nat.add_sub_cancel_left]
  by_cases h : snsdAttackThreshold ≤ n
  · have hlt : l.smp.lastSampCnt+n > l.smp.lastSampCnt := by omega
    rw [if_pos hlt, if_pos h, decide_eq_true h]
  · rw [if_neg h, ite_self, decide_eq_false h]

/-! One event. -/

section Step
variable {i : Fin snsdMaxListener} {s : Observed}

/-- No socket event touches the counters or the monitor. -/
theorem update_counters (r : SockReplies) (t : SnsdListenerInfo) (fd : ℕ)
    (port : SnsdPortRelatedInfo) (event : SnsdSockEvent) (i : Fin snsdMaxListener) :
    (fun l : SnsdListenerSlot => (l.smp, l.dropMonitor))
        ((snsdUpdateServer r t fd port event).1.listener.get i) =
      ((t.listener.get i).smp, (t.listener.get i).dropMonitor) := by
  cases event with
  | create =>
    rw [snsdUpdateServer]
    rcases addServer_cases r t fd port with ⟨-, hsame, -⟩ | ⟨k, -, -, heq⟩
    · rw [hsame]
    · rw [heq]
      exact modify_keeps (fun l => (l.smp, l.dropMonitor)) rfl i
  | close =>
    rw [snsdUpdateServer]
    unfold snsdRemoveServer
    rcases t.find fd with _ | k
    · rfl
    · exact modify_keeps (fun l => (l.smp, l.dropMonitor)) rfl i
  | addIp =>
    rw [snsdUpdateServer]
    unfold snsdAddServerIp
    rcases t.find fd with _ | k
    · rfl
    · dsimp only
      rcases insertSlot (Mem.zero 16) port.ip (t.listener.get k).hostIp with _ | w
      · rfl
      · exact modify_keeps (fun l => (l.smp, l.dropMonitor)) rfl i
  | removeIp =>
    rw [snsdUpdateServer]
    unfold snsdRemoveServerIp
    rcases t.find fd with _ | k
    · rfl
    · exact modify_keeps (fun l => (l.smp, l.dropMonitor)) rfl i
  | butt => rfl

/-- An event that is no sample leaves the monitor and the law alone. -/
theorem MonitorInv.idle {e : ListenerEvent} (h : MonitorInv i s) (hno : ¬ IsSample s.1 e)
    (hmon : ((listenerStep s.1 e).listener.get i).dropMonitor = (s.1.listener.get i).dropMonitor)
    (hquiet : (watch i s.1 s.2 e).quiet = s.2.quiet)
    (hcnt : ((listenerStep s.1 e).listener.get i).smp.rcvCnt =
      u64 (((listenerStep s.1 e).listener.get i).smp.lastSampCnt+(watch i s.1 s.2 e).count)) :
    MonitorInv i (observe i s e) ∧ DropLaw i s e := by
  have hdrop : dropping i (observe i s e) = dropping i s := congrArg SnsdAttackMonitor.drop hmon
  refine ⟨⟨hcnt, fun hd => ?_⟩, ⟨?_, ?_⟩⟩
  · rw [hdrop] at hd
    change ((listenerStep s.1 e).listener.get i).dropMonitor.dropInterval = (watch i s.1 s.2 e).quiet ∧
      (watch i s.1 s.2 e).quiet ≤ _
    rw [hmon, hquiet]
    exact h.interval hd
  · simp [hdrop, hno]
  · simp [hdrop, hno]

theorem MonitorInv.update (h : MonitorInv i s) (fd : ℕ) (port : SnsdPortRelatedInfo)
    (event : SnsdSockEvent) (r : SockReplies) :
    MonitorInv i (observe i s (.update fd port event r)) ∧
      DropLaw i s (.update fd port event r) := by
  obtain ⟨hsmp, hmon⟩ := Prod.mk.inj (update_counters r s.1 fd port event i)
  apply h.idle (e := .update fd port event r) id hmon rfl
  rw [listenerStep, hsmp]
  exact h.counter

theorem MonitorInv.receive (h : MonitorInv i s) (fd : ℕ) :
    MonitorInv i (observe i s (.receive fd)) ∧ DropLaw i s (.receive fd) := by
  rcases hk : s.1.find fd with _ | k
  · have hstep : listenerStep s.1 (.receive fd) = s.1 := by
      rw [listenerStep]
      unfold snsdListenerMsgInc
      rw [hk]
    have hwatch : watch i s.1 s.2 (.receive fd) = s.2 := by
      rw [watch, if_neg (by rw [hk]; simp)]
    apply h.idle id (by rw [hstep]) (by rw [hwatch])
    rw [hstep, hwatch]
    exact h.counter
  · have hstep : listenerStep s.1 (.receive fd) =
        s.1.modify k fun l => { l with smp := { l.smp with rcvCnt := u64 (l.smp.rcvCnt+1) } } := by
      rw [listenerStep]
      unfold snsdListenerMsgInc
      rw [hk]
    have hmon := modify_keeps (t := s.1) (i := k) (f := fun l =>
      { l with smp := { l.smp with rcvCnt := u64 (l.smp.rcvCnt+1) } }) (·.dropMonitor) rfl i
    rw [← hstep] at hmon
    by_cases hik : i = k
    · subst hik
      have hwatch : watch i s.1 s.2 (.receive fd) = { s.2 with count := s.2.count+1 } := by
        rw [watch, if_pos hk]
      apply h.idle id hmon (by rw [hwatch])
      rw [hstep, hwatch, modify_self]
      change u64 ((s.1.listener.get i).smp.rcvCnt+1) = _
      rw [h.counter, u64, u64, Nat.mod_add_mod, Nat.add_assoc]
      rfl
    · have hwatch : watch i s.1 s.2 (.receive fd) = s.2 := by
        rw [watch, if_neg]
        rw [hk]
        exact fun he => hik (Option.some.inj he).symm
      apply h.idle id hmon (by rw [hwatch])
      rw [hstep, hwatch, modify_ne hik]
      exact h.counter

/-- A sample while the monitor is idle or in a recovery that nothing breaks. -/
theorem MonitorInv.sample (h : MonitorInv i s) {now : ℤ}
    (hs : ¬ now-s.1.lastSempTime < snsdDetectPeriod) (hok : Unbroken i s (.detect now)) :
    MonitorInv i (observe i s (.detect now)) ∧ DropLaw i s (.detect now) := by
  obtain ⟨hbreak, hwrap⟩ := hok hs
  have hslot : (observe i s (.detect now)).1.listener.get i =
      listenerSample snsdAttackThreshold (s.1.listener.get i) := by
    rw [observe, listenerStep, snsdAttackDetect, snsdListenerMonitor, if_neg hs]
    exact map_get ..
  have hlog : (observe i s (.detect now)).2 = sampled s.2 := by
    rw [observe, watch, if_neg hs]
  have hmon := listenerSample_monitor h.counter hwrap
  have hcnt : ((observe i s (.detect now)).1.listener.get i).smp.rcvCnt =
      u64 (((observe i s (.detect now)).1.listener.get i).smp.lastSampCnt+
        (observe i s (.detect now)).2.count) := by
    rw [hslot, hlog]
    change (s.1.listener.get i).smp.rcvCnt = u64 ((s.1.listener.get i).smp.rcvCnt+0)
    rw [h.counter, Nat.add_zero, u64, u64, Nat.mod_mod]
  have hdrop : dropping i (observe i s (.detect now)) =
      (snsdListenerStateChange (s.1.listener.get i).dropMonitor
        (decide (snsdAttackThreshold ≤ s.2.count))).drop := by
    rw [dropping, hslot, hmon]
  have hsample : IsSample s.1 (.detect now) := hs
  by_cases hattack : snsdAttackThreshold ≤ s.2.count
  · have hquiet : (observe i s (.detect now)).2.quiet = 0 := by
      rw [hlog, sampled, if_neg (Nat.not_lt.mpr hattack)]
    rw [decide_eq_true hattack] at hmon hdrop
    rcases hd : (s.1.listener.get i).dropMonitor.drop with _ | _
    · -- the drop starts
      rw [stateChange_attack hd] at hmon hdrop
      refine ⟨⟨hcnt, fun _ => ?_⟩, ⟨?_, ?_⟩⟩
      · rw [hslot, hmon, hquiet]
        exact ⟨rfl, Nat.zero_le _⟩
      · simp [hdrop, hsample, hattack]
      · simp [hdrop, hquiet]
    · -- an attack goes on
      have hsame := stateChange_same (m := (s.1.listener.get i).dropMonitor)
      rw [hd] at hsame
      rw [hsame] at hmon hdrop
      have hq := hbreak hd hattack
      have hint := (h.interval hd).1
      refine ⟨⟨hcnt, fun _ => ?_⟩, ⟨?_, ?_⟩⟩
      · rw [hslot, hmon, hquiet, hint, hq]
        exact ⟨rfl, Nat.zero_le _⟩
      · have hbefore : dropping i s = true := hd
        simp [hbefore]
      · rw [hdrop, hd]
        simp [hquiet]
  · have hquiet : (observe i s (.detect now)).2.quiet = s.2.quiet+1 := by
      rw [hlog, sampled, if_pos (Nat.not_le.mp hattack)]
    rw [decide_eq_false hattack] at hmon hdrop
    rcases hd : (s.1.listener.get i).dropMonitor.drop with _ | _
    · -- nothing to recover from
      have hsame := stateChange_same (m := (s.1.listener.get i).dropMonitor)
      rw [hd] at hsame
      rw [hsame, hd] at hdrop
      have hbefore : dropping i s = false := hd
      refine ⟨⟨hcnt, fun hd' => ?_⟩, ⟨?_, ?_⟩⟩
      · rw [hdrop] at hd'
        exact absurd hd' (by decide)
      · simp [hdrop, hattack]
      · simp [hbefore]
    · -- one more quiet sample of the recovery
      obtain ⟨hint, hle⟩ := h.interval hd
      rw [stateChange_quiet hd hint hle] at hmon hdrop
      have hbefore : dropping i s = true := hd
      refine ⟨⟨hcnt, fun hd' => ?_⟩, ⟨?_, ?_⟩⟩
      · rw [hdrop] at hd'
        rw [hslot, hmon, hquiet]
        exact ⟨rfl, of_decide_eq_true hd'⟩
      · simp [hbefore]
      · simp only [hbefore, hdrop, hquiet, hsample, true_and, decide_eq_false_iff_not,
          Nat.add_right_cancel_iff]
        omega

theorem MonitorInv.step (h : MonitorInv i s) {e : ListenerEvent} (hok : Unbroken i s e) :
    MonitorInv i (observe i s e) ∧ DropLaw i s e := by
  cases e with
  | update fd port event r => exact h.update fd port event r
  | receive fd => exact h.receive fd
  | detect now =>
    by_cases hs : now-s.1.lastSempTime < snsdDetectPeriod
    · have hstep : listenerStep s.1 (.detect now) = s.1 := by
        rw [listenerStep, snsdAttackDetect, snsdListenerMonitor, if_pos hs]
      have hwatch : watch i s.1 s.2 (.detect now) = s.2 := by
        rw [watch, if_pos hs]
      have hno : ¬ IsSample s.1 (.detect now) := not_not.mpr hs
      apply h.idle hno (by rw [hstep]) (by rw [hwatch])
      rw [hstep, hwatch]
      exact h.counter
    · exact h.sample hs hok

end Step

/-! Runs. -/

/-- The table as it starts, with nothing counted. -/
def unobserved (now : ℤ) : Observed := (snsdInitListeners now, ⟨0, 0⟩)

theorem monitorInv_init (now : ℤ) (i : Fin snsdMaxListener) : MonitorInv i (unobserved now) := by
  have hslot : (unobserved now).1.listener.get i = SnsdListenerSlot.init :=
    initListeners_get now i
  refine ⟨?_, fun h => ?_⟩
  · rw [hslot]
    rfl
  · rw [dropping, hslot] at h
    exact absurd h (by decide)

/-- The state after `n` messages for the slot. -/
def flooded (i : Fin snsdMaxListener) (n : ℕ) (s : Observed) : Observed :=
  (s.1.modify i fun l => { l with smp := { l.smp with rcvCnt := u64 (l.smp.rcvCnt+n) } },
    { s.2 with count := s.2.count+n })

theorem receives_observe {i : Fin snsdMaxListener} {s : Observed} {fd : ℕ}
    (hi : s.1.find fd = some i) (n : ℕ) :
    (List.replicate (n+1) (.receive fd)).foldl (observe i) s = flooded i (n+1) s := by
  have hone (s : Observed) (hi : s.1.find fd = some i) :
      observe i s (.receive fd) = flooded i 1 s := by
    rw [observe, listenerStep, watch, if_pos hi]
    unfold snsdListenerMsgInc
    rw [hi]
    rfl
  induction n with
  | zero => exact hone s hi
  | succ n ih =>
    have hfind : (flooded i (n+1) s).1.find fd = some i := (find_modify rfl).trans hi
    rw [List.replicate_succ', List.foldl_concat, ih, hone _ hfind]
    unfold flooded
    simp only [modify_modify, Nat.add_assoc, Prod.mk.injEq, and_true]
    congr 1
    funext l
    simp only [Function.comp, u64, Nat.mod_add_mod, Nat.add_assoc]

/-- An attack, twenty quiet samples, and the attack again. -/
def flood : List ListenerEvent := List.replicate 500 (.receive 3)

def brokenRecovery : List ListenerEvent :=
  [.update 3 somePort .create allSucceed] ++ flood ++
    .detect 500 :: (List.range 20).map (fun j => .detect (1000+500*j)) ++ flood ++ [.detect 11000]

def recovering : Observed :=
  (.detect 500 :: (List.range 20).map (fun j => .detect (1000+500*j))).foldl (observe 0)
    (flooded 0 500 (oneListener, ⟨0, 0⟩))

theorem brokenRecovery_observe :
    brokenRecovery.foldl (observe 0) (unobserved 0) =
      observe 0 (flooded 0 500 recovering) (.detect 11000) := by
  have hcreate : [ListenerEvent.update 3 somePort .create allSucceed].foldl (observe 0)
      (unobserved 0) = (oneListener, ⟨0, 0⟩) := rfl
  have hflood (s : Observed) (hs : s.1.find (3 : ℕ) = some 0) :
      flood.foldl (observe 0) s = flooded 0 500 s := receives_observe hs 499
  have hfind : recovering.1.find (3 : ℕ) = some 0 := by decide +kernel
  rw [brokenRecovery, List.foldl_append, List.foldl_append, List.foldl_append, List.foldl_append,
    hcreate, hflood (oneListener, ⟨0, 0⟩) oneListener_find]
  change observe 0 (flood.foldl (observe 0) recovering) (.detect 11000) = _
  rw [hflood recovering hfind]

end NvmeSnsd.Server
