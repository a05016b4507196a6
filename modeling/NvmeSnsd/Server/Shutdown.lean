import NvmeSnsd.Lib.Latch

/-! Starting and stopping the server's two threads: `snsd_create_worker`,
`snsd_join_worker`, and what is given back behind them. -/
namespace NvmeSnsd.Server
open Lib

/-- `snsd_msg_rcv` and `snsd_msg_handle` -/
inductive ServerThread
  | rcv
  | handle
  deriving DecidableEq

instance : Fintype ServerThread := ⟨{.rcv, .handle}, fun w => by cases w <;> decide⟩

/-- Where `snsd_server_run` and, after it, `snsd_server_exit` stand: `running` is
between the two, and `removeAll`, `release` and `free` are the calls to be made. -/
inductive ServerPc
  | createRcv
  | createHandle
  | running
  | joining
  | removeAll
  | release
  | free
  | done
  deriving DecidableEq

structure ServerRun where
  latch : Latch ServerThread
  stopFlag : Bool
  pc : ServerPc

/-- `created` is the answer of the next `pthread_create`, `exit` the call of
`snsd_server_exit`, and `next` goes on behind the wait. -/
inductive ServerMove
  | created (ok : Bool)
  | exit
  | latch (m : LatchMove ServerThread)
  | next

/-- Once `stop_flag` is cleared. -/
def ServerRun.init : ServerRun := ⟨.init, false, .createRcv⟩

/-- `snsd_msg_rcv` also leaves its loop when `epoll_wait` fails. -/
def mayLeave (stopFlag : Bool) : LatchMove ServerThread → Bool
  | .leave .rcv => true
  | .leave .handle => stopFlag
  | .starter => true
  | .worker _ => true
  | .wake => true
  | .create _ => false
  | .join => false

def serverStep (s : ServerRun) : ServerMove → Option ServerRun
  | .created ok =>
    match s.pc with
    | .createRcv =>
      if ok then (s.latch.step (.create .rcv)).map fun l => { s with latch := l, pc := .createHandle }
      else some { s with pc := .removeAll }
    | .createHandle =>
      if ok then (s.latch.step (.create .handle)).map fun l => { s with latch := l, pc := .running }
      else (s.latch.step .join).map fun l => ⟨l, true, .joining⟩
    | _ => none
  | .exit =>
    match s.pc with
    | .running => (s.latch.step .join).map fun l => ⟨l, true, .joining⟩
    | _ => none
  | .latch m =>
    if mayLeave s.stopFlag m then (s.latch.step m).map fun l => { s with latch := l } else none
  | .next =>
    match s.pc with
    | .joining => if s.latch.starter = .passed then some { s with pc := .removeAll } else none
    | .removeAll => some { s with pc := .release }
    | .release => some { s with pc := .free }
    | .free => some { s with pc := .done }
    | _ => none

/-- The listeners, the mutex with its condition, or the messages are being given back. -/
def ServerPc.cleans : ServerPc → Bool
  | .removeAll => true
  | .release => true
  | .free => true
  | .done => true
  | _ => false

section Run
variable {s t : ServerRun}

structure ServerRunOk (s : ServerRun) : Prop where
  latch : s.latch.Ok
  gone : s.pc.cleans = true → ∀ w, (s.latch.worker w).gone = true
  absent : s.pc = .createRcv → ∀ w, s.latch.worker w = .absent
  joining : s.pc = .joining →
    s.stopFlag = true ∧ (s.latch.starter.joins = true ∨ s.latch.starter = .passed)

theorem serverRunOk_init : ServerRunOk .init where
  latch := Latch.ok_init
  gone := fun h => (by cases h)
  absent := fun _ _ => rfl
  joining := fun h => (by cases h)

theorem joins_of_join {l l' : Latch ServerThread} (h : l.step .join = some l') :
    l'.starter.joins = true := by
  simp only [Latch.step] at h
  split_ifs at h
  obtain rfl := Option.some.inj h
  rfl

theorem serverRunOk_step (h : ServerRunOk s) {m : ServerMove} (ht : serverStep s m = some t) :
    ServerRunOk t := by
  cases m with
  | created ok =>
    simp only [serverStep] at ht
    split at ht
    · rename_i hpc
      split_ifs at ht
      · obtain ⟨l, hl, rfl⟩ := Option.map_eq_some_iff.mp ht
        exact ⟨Latch.step_ok h.latch hl, fun hc => (by cases hc), fun hc => (by cases hc),
          fun hc => (by cases hc)⟩
      · obtain rfl := Option.some.inj ht
        refine ⟨h.latch, fun _ w => ?_, fun hc => (by cases hc), fun hc => (by cases hc)⟩
        dsimp only
        rw [h.absent hpc w]
        rfl
    · split_ifs at ht
      · obtain ⟨l, hl, rfl⟩ := Option.map_eq_some_iff.mp ht
        exact ⟨Latch.step_ok h.latch hl, fun hc => (by cases hc), fun hc => (by cases hc),
          fun hc => (by cases hc)⟩
      · obtain ⟨l, hl, rfl⟩ := Option.map_eq_some_iff.mp ht
        exact ⟨Latch.step_ok h.latch hl, fun hc => (by cases hc), fun hc => (by cases hc),
          fun _ => ⟨rfl, .inl (joins_of_join hl)⟩⟩
    · cases ht
  | exit =>
    simp only [serverStep] at ht
    split at ht
    · obtain ⟨l, hl, rfl⟩ := Option.map_eq_some_iff.mp ht
      exact ⟨Latch.step_ok h.latch hl, fun hc => (by cases hc), fun hc => (by cases hc),
        fun _ => ⟨rfl, .inl (joins_of_join hl)⟩⟩
    · cases ht
  | latch m =>
    simp only [serverStep] at ht
    split_ifs at ht with hm
    obtain ⟨l, hl, rfl⟩ := Option.map_eq_some_iff.mp ht
    have hno : m.starts = false := by
      cases m with
      | create | join => cases hm
      | starter | leave | worker | wake => rfl
    refine ⟨Latch.step_ok h.latch hl, fun hc => Latch.gone_step hno (h.gone hc) hl,
      fun hc => Latch.absent_step hno (h.absent hc) hl, fun hc => ?_⟩
    obtain ⟨hstop, hj⟩ := h.joining hc
    exact ⟨hstop, Latch.joins_step hno hj hl⟩
  | next =>
    simp only [serverStep] at ht
    split at ht
    · split_ifs at ht with hp
      obtain rfl := Option.some.inj ht
      refine ⟨h.latch, fun _ => h.latch.past ?_, fun hc => (by cases hc), fun hc => (by cases hc)⟩
      rw [hp]
      rfl
    · rename_i hpc
      obtain rfl := Option.some.inj ht
      exact ⟨h.latch, fun _ => h.gone (by rw [hpc]; rfl), fun hc => (by cases hc),
        fun hc => (by cases hc)⟩
    · rename_i hpc
      obtain rfl := Option.some.inj ht
      exact ⟨h.latch, fun _ => h.gone (by rw [hpc]; rfl), fun hc => (by cases hc),
        fun hc => (by cases hc)⟩
    · rename_i hpc
      obtain rfl := Option.some.inj ht
      exact ⟨h.latch, fun _ => h.gone (by rw [hpc]; rfl), fun hc => (by cases hc),
        fun hc => (by cases hc)⟩
    · cases ht

/-- Moves that need nothing from outside. -/
def ServerMove.own : ServerMove → Bool
  | .latch m => m.drains
  | .next => true
  | _ => false

/-- While the server stops, the moves of the latch are its own. -/
theorem latch_run {ms : List (LatchMove ServerThread)} {s : ServerRun} {l : Latch ServerThread}
    (hstop : s.stopFlag = true) (hms : ∀ m ∈ ms, m.drains = true)
    (h : run Latch.step s.latch ms = some l) :
    run serverStep s (ms.map .latch) = some { s with latch := l } := by
  induction ms generalizing s with
  | nil =>
    obtain rfl := Option.some.inj h
    rfl
  | cons m ms ih =>
    obtain ⟨l', hl', h⟩ := run_cons.mp h
    have hm : mayLeave s.stopFlag m = true := by
      rw [hstop]
      have hd := hms m List.mem_cons_self
      cases m with
      | leave w => cases w <;> rfl
      | starter | worker => rfl
      | create | join | wake => cases hd
    have hstep : serverStep s (.latch m) = some { s with latch := l' } := by
      simp only [serverStep, hm, if_true, hl', Option.map_some]
    have hrest := ih (s := { s with latch := l' }) hstop
      (fun x hx => hms x (List.mem_cons_of_mem _ hx)) h
    exact run_cons.mpr ⟨_, hstep, hrest⟩

theorem cleans_ends (h : s.pc.cleans = true) :
    ∃ n t, run serverStep s (List.replicate n .next) = some t ∧ t.pc = .done := by
  cases hpc : s.pc with
  | removeAll =>
    exact ⟨3, { s with pc := .done }, by simp [run, serverStep, hpc, List.replicate], rfl⟩
  | release =>
    exact ⟨2, { s with pc := .done }, by simp [run, serverStep, hpc, List.replicate], rfl⟩
  | free => exact ⟨1, { s with pc := .done }, by simp [run, serverStep, hpc, List.replicate], rfl⟩
  | done => exact ⟨0, s, rfl, hpc⟩
  | createRcv | createHandle | running | joining =>
    rw [hpc] at h
    cases h

/-- A server that stops comes to its end by itself. -/
theorem server_ends (h : ServerRunOk s) (hpc : s.pc = .joining ∨ s.pc.cleans = true) :
    ∃ ms t, (∀ m ∈ ms, ServerMove.own m = true) ∧ run serverStep s ms = some t ∧ t.pc = .done := by
  have hclean {u : ServerRun} (hu : u.pc.cleans = true) : ∃ ms t,
      (∀ m ∈ ms, ServerMove.own m = true) ∧ run serverStep u ms = some t ∧ t.pc = .done := by
    obtain ⟨n, t, ht, hdone⟩ := cleans_ends hu
    refine ⟨_, t, ?_, ht, hdone⟩
    intro m hm
    rw [List.eq_of_mem_replicate hm]
    rfl
  rcases hpc with hpc | hpc
  · obtain ⟨hstop, hj⟩ := h.joining hpc
    obtain ⟨ms, l, hms, hl, -, hp⟩ : ∃ ms l, (∀ m ∈ ms, LatchMove.drains m = true) ∧
        run Latch.step s.latch ms = some l ∧ l.Ok ∧ l.starter = .passed := by
      rcases hj with hj | hp
      · exact Latch.join_passes h.latch hj
      · exact ⟨[], s.latch, fun _ hm => (List.not_mem_nil hm).elim, rfl, h.latch, hp⟩
    have hrun := latch_run hstop hms hl
    have hnext : serverStep { s with latch := l } .next =
        some { s with latch := l, pc := .removeAll } := by
      simp only [serverStep, hpc, hp, if_true]
    obtain ⟨ms', t, hms', ht, hdone⟩ := hclean (u := { s with latch := l, pc := .removeAll }) rfl
    refine ⟨ms.map .latch ++ (.next :: ms'), t, ?_, ?_, hdone⟩
    · intro m hm
      rcases List.mem_append.mp hm with hm | hm
      · obtain ⟨x, hx, rfl⟩ := List.mem_map.mp hm
        exact hms x hx
      · rcases List.mem_cons.mp hm with rfl | hm
        · rfl
        · exact hms' m hm
    · exact run_append.mpr ⟨_, hrun, run_cons.mpr ⟨_, hnext, ht⟩⟩
  · exact hclean hpc

end Run

/-- In every run, whatever thread creations fail: nothing is given back before both
threads are out of their loops, with at most a signal left to make; and a server that
has begun to stop can always be brought to its end by its own threads, however they
were interleaved before. -/
theorem shutdown_safe {ms : List ServerMove} {s : ServerRun}
    (hr : run serverStep .init ms = some s) :
    (s.pc.cleans = true → ∀ w, (s.latch.worker w).gone = true) ∧
    (s.pc = .joining ∨ s.pc.cleans = true → ∃ ms' t, (∀ m ∈ ms', ServerMove.own m = true) ∧
      run serverStep s ms' = some t ∧ t.pc = .done) := by
  have h : ServerRunOk s :=
    run_invariant (fun s m t h ht => serverRunOk_step h ht) serverRunOk_init hr
  exact ⟨h.gone, server_ends h⟩

/-- Both threads run, the server is told to exit and its wait begins; the receiving
thread counts itself off, then the other. -/
def stopping : List ServerMove :=
  [.created true, .latch .starter, .latch .starter, .latch .starter, .created true,
    .latch .starter, .latch .starter, .latch .starter, .exit, .latch .starter, .latch .starter,
    .latch (.leave .rcv), .latch (.worker .rcv), .latch (.worker .rcv), .latch (.worker .rcv),
    .latch (.leave .handle), .latch (.worker .handle), .latch (.worker .handle),
    .latch (.worker .handle), .latch (.worker .rcv), .latch .starter, .latch .starter,
    .latch .starter, .next, .next]

theorem shutdown_safe_sample : (run serverStep .init stopping).any (fun s =>
      s.pc.cleans && decide (s.latch.worker .handle = .signalling)) = true ∧
    ∀ s, run serverStep .init stopping = some s → ∀ w, (s.latch.worker w).gone = true := by
  refine ⟨by decide, fun s hr => ?_⟩
  have hany : (run serverStep .init stopping).any (fun s => s.pc.cleans) = true := by decide
  rw [hr] at hany
  exact (shutdown_safe hr).1 hany

end NvmeSnsd.Server
