import NvmeSnsd.Lib.Run
import NvmeSnsd.Mgt.Carried
import NvmeSnsd.Switch.Slaves
import NvmeSnsd.Switch.Port

/-! Runs of the poll of the switch: one step for the poll of the interfaces, and one
for the turn of each port that it leaves in the list. -/
namespace NvmeSnsd.Switch
open Lib Cfg Mgt

/-- The poller between two steps: the ports that had their turn in this poll and those
that still have it, the table, the number of the poll that made the last check, that of
the next poll, whether this poll checks, and what was sent and deleted so far. -/
structure SwitchRun where
  done : List SwitchNet
  todo : List SwitchNet
  table : FdTable
  count : UInt32
  pollCount : UInt32
  needCheck : Bool
  log : List SwitchEvent

namespace SwitchRun

/-- The list of ports. -/
def nets (r : SwitchRun) : List SwitchNet := r.done ++ r.todo

/-- The number of the poll that the turns belong to. -/
def now (r : SwitchRun) : UInt32 := r.pollCount - 1

/-- The start of `port_handle`. -/
def init : SwitchRun := ⟨[], [], switchPortInit, 0, SWITCH_POLL_INTEVAL, false, []⟩

end SwitchRun

inductive SwitchLabel
  | poll (sys : NetSystem)
  | turn (ans : TurnAnswer)

/-- A step; none where it is not possible or ends in a fault. -/
def switchStep (pton : Pton) (s : CfgState) (r : SwitchRun) : SwitchLabel → Option SwitchRun
  | .poll sys =>
    match r.todo with
    | _ :: _ => none
    | [] =>
      match snsdCfgNetInfo pton s LldpRunInfo.zero .sw sys r.pollCount r.done with
      | .error _ => none
      | .ok (nets, ret) =>
        if ret ≠ 0 then some { r with done := nets, pollCount := r.pollCount+1 }
        else
          let needCheck := switchNeedCheckLldp r.count r.pollCount
          some { r with
            done := []
            todo := nets
            needCheck := needCheck
            -- nothing reads it before the next poll
            count := if needCheck then r.pollCount else r.count
            pollCount := r.pollCount+1 }
  | .turn ans =>
    match r.todo with
    | [] => none
    | net :: rest =>
      let one := switchPortOne r.needCheck r.now ans r.table net
      some { r with
        done := r.done ++ one.2.1.toList
        todo := rest
        table := one.1
        log := r.log ++ one.2.2 }

section Steps
variable {pton : Pton} {s : CfgState} {r r' : SwitchRun}

theorem step_turn {ans : TurnAnswer} (h : switchStep pton s r (.turn ans) = some r') :
    ∃ net rest, r.todo = net :: rest ∧ r' = { r with
      done := r.done ++ (switchPortOne r.needCheck r.now ans r.table net).2.1.toList
      todo := rest
      table := (switchPortOne r.needCheck r.now ans r.table net).1
      log := r.log ++ (switchPortOne r.needCheck r.now ans r.table net).2.2 } := by
  simp only [switchStep] at h
  split at h
  · cases h
  · next net rest htodo => exact ⟨net, rest, htodo, (Option.some.inj h).symm⟩

/-- A poll that fails leaves the list as far as it came. -/
theorem step_poll {sys : NetSystem} (h : switchStep pton s r (.poll sys) = some r') :
    r.todo = [] ∧ ∃ nets ret,
      snsdCfgNetInfo pton s LldpRunInfo.zero .sw sys r.pollCount r.done = .ok (nets, ret) ∧
      (ret ≠ 0 ∧ r' = { r with done := nets, pollCount := r.pollCount+1 } ∨
        ret = 0 ∧ r' = { r with
          done := []
          todo := nets
          needCheck := switchNeedCheckLldp r.count r.pollCount
          count := if switchNeedCheckLldp r.count r.pollCount then r.pollCount else r.count
          pollCount := r.pollCount+1 }) := by
  simp only [switchStep] at h
  split at h
  · cases h
  · next htodo =>
    refine ⟨htodo, ?_⟩
    split at h
    · cases h
    · next nets ret hcfg =>
      refine ⟨nets, ret, hcfg, ?_⟩
      split at h
      · next hret => exact Or.inl ⟨hret, (Option.some.inj h).symm⟩
      · next hret => exact Or.inr ⟨not_not.mp hret, (Option.some.inj h).symm⟩

end Steps

/-! The steps are those of `switch_port_handle`. -/

section Handle
variable {pton : Pton} {s : CfgState}

theorem run_turns (ans : ℕ → TurnAnswer) (r : SwitchRun) :
    run (switchStep pton s) r ((List.range r.todo.length).map fun n => .turn (ans n)) =
      some { r with
        done := r.done ++ (switchPortLoop r.needCheck r.now ans r.table r.todo).2.1
        todo := []
        table := (switchPortLoop r.needCheck r.now ans r.table r.todo).1
        log := r.log ++ (switchPortLoop r.needCheck r.now ans r.table r.todo).2.2 } := by
  obtain ⟨done, todo, table, count, pollCount, needCheck, log⟩ := r
  induction todo generalizing ans done table log with
  | nil => simp [run, switchPortLoop]
  | cons net rest ih =>
    let one := switchPortOne needCheck (pollCount - 1) (ans 0) table net
    have hstep : switchStep pton s ⟨done, net :: rest, table, count, pollCount, needCheck, log⟩
        (.turn (ans 0)) = some ⟨done ++ one.2.1.toList, rest, one.1, count, pollCount, needCheck,
          log ++ one.2.2⟩ := rfl
    have hrest := ih (fun n => ans (n+1)) (done ++ one.2.1.toList) one.1 (log ++ one.2.2)
    rw [List.length_cons, List.range_succ_eq_map, List.map_cons, List.map_map, run, hstep,
      Option.bind_some]
    refine hrest.trans ?_
    rw [List.append_assoc, List.append_assoc]
    rfl

/-- A call of the function is a step for the poll and one for each port. -/
theorem handle_run {r : SwitchRun} (htodo : r.todo = []) {sys : NetSystem} {ans : ℕ → TurnAnswer}
    {st : SwitchState} {events : List SwitchEvent}
    (h : switchPortHandle pton s sys r.pollCount ans ⟨r.done, r.table, r.count⟩ = .ok (st, events)) :
    ∃ n needCheck, run (switchStep pton s) r
        (.poll sys :: (List.range n).map fun n => .turn (ans n)) =
      some ⟨st.nets, [], st.table, st.count, r.pollCount+1, needCheck, r.log ++ events⟩ := by
  obtain ⟨done, todo, table, count, pollCount, needCheck, log⟩ := r
  obtain rfl : todo = [] := htodo
  obtain ⟨⟨nets, ret⟩, hcfg, h⟩ := bind_eq_ok.mp h
  dsimp only at hcfg h
  have hnow : pollCount + 1 - 1 = pollCount := by
    grind
  by_cases hret : ret = 0
  · have hstep : switchStep pton s ⟨done, [], table, count, pollCount, needCheck, log⟩
        (.poll sys) = some ⟨[], nets, table,
          if switchNeedCheckLldp count pollCount then pollCount else count, pollCount+1,
          switchNeedCheckLldp count pollCount, log⟩ := by
      rw [switchStep]
      dsimp only
      rw [hcfg]
      dsimp only
      rw [if_neg (not_not.mpr hret)]
    rw [if_neg (not_not.mpr hret)] at h
    cases h
    refine ⟨nets.length, switchNeedCheckLldp count pollCount, ?_⟩
    rw [run, hstep, Option.bind_some]
    refine (run_turns ans ⟨[], nets, table,
      if switchNeedCheckLldp count pollCount then pollCount else count, pollCount+1,
      switchNeedCheckLldp count pollCount, log⟩).trans ?_
    simp only [SwitchRun.now, hnow, List.nil_append]
  · have hstep : switchStep pton s ⟨done, [], table, count, pollCount, needCheck, log⟩
        (.poll sys) = some ⟨nets, [], table, count, pollCount+1, needCheck, log⟩ := by
      rw [switchStep]
      dsimp only
      rw [hcfg]
      dsimp only
      rw [if_pos hret]
    rw [if_pos hret] at h
    cases h
    refine ⟨0, needCheck, ?_⟩
    rw [List.range_zero, List.map_nil, run, hstep, Option.bind_some, List.append_nil]
    rfl

end Handle

end NvmeSnsd.Switch
