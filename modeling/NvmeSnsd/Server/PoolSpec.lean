import NvmeSnsd.Server.Pool

/-! The pool loses no node and no message, over every interleaving of the two
threads. -/
namespace NvmeSnsd.Server
open Lib

def poolNodes : List NodeAddr := (List.range snsdMaxMsgNum).map .node

/-- The two lists of the pool, and that they share the allocated nodes. -/
structure MsgPool.Holds (p : MsgPool) (free active : List NodeAddr) : Prop where
  recvRing : p.links.Ring .recv free
  activeRing : p.links.Ring .active active
  nodes : (free ++ active).Perm poolNodes

theorem mem_poolNodes {a : NodeAddr} (h : a ∈ poolNodes) : a ≠ .recv ∧ a ≠ .active := by
  obtain ⟨i, _, rfl⟩ := List.mem_map.mp h
  exact ⟨NodeAddr.noConfusion, NodeAddr.noConfusion⟩

namespace MsgPool.Holds
variable {p : MsgPool} {free active : List NodeAddr}

theorem mem_ne (h : p.Holds free active) {a : NodeAddr} (ha : a ∈ free ++ active) :
    a ≠ .recv ∧ a ≠ .active := mem_poolNodes (h.nodes.mem_iff.mp ha)

theorem poolNodes_nodup : poolNodes.Nodup :=
  List.nodup_range.map (fun _ _ h => NodeAddr.node.inj h)

theorem nodup (h : p.Holds free active) : (free ++ active).Nodup :=
  h.nodes.nodup_iff.mpr poolNodes_nodup

theorem rings_disjoint (h : p.Holds free active) :
    List.Disjoint (NodeAddr.recv :: free) (.active :: active) := by
  have hd := List.disjoint_of_nodup_append h.nodup
  intro a ha hb
  rcases List.mem_cons.mp ha with rfl | ha
  · rcases List.mem_cons.mp hb with hb | hb
    · cases hb
    · exact (h.mem_ne (List.mem_append_right _ hb)).1 rfl
  · rcases List.mem_cons.mp hb with rfl | hb
    · exact (h.mem_ne (List.mem_append_left _ ha)).2 rfl
    · exact hd ha hb

theorem length_add (h : p.Holds free active) : free.length+active.length = snsdMaxMsgNum := by
  have hl := h.nodes.length_eq
  rw [List.length_append, poolNodes, List.length_map, List.length_range] at hl
  exact hl

end MsgPool.Holds

/-- Moving the first node of one list to the end of the other. -/
theorem move_first {l : Links NodeAddr} {h1 h2 e : NodeAddr} {xs ys : List NodeAddr}
    (hx : l.Ring h1 (e :: xs)) (hy : l.Ring h2 ys)
    (hdis : List.Disjoint (h1 :: e :: xs) (h2 :: ys)) :
    ((l.del e).addTail e h2).Ring h1 xs ∧ ((l.del e).addTail e h2).Ring h2 (ys ++ [e]) := by
  have hx0 : l.Ring h1 ([] ++ e :: xs) := hx
  have hx1 : (l.del e).Ring h1 xs := hx0.del
  have hy1 : (l.del e).Ring h2 ys := hy.del_frame hx0 hdis.symm
  have he1 : e ∉ h1 :: xs := by
    have hnd := hx.nodup
    simp only [List.nodup_cons, List.mem_cons, not_or] at hnd
    simp only [List.mem_cons, not_or]
    exact ⟨Ne.symm hnd.1.1, hnd.2.1⟩
  have he2 : e ∉ h2 :: ys := hdis (List.mem_cons_of_mem _ List.mem_cons_self)
  have hsub : List.Disjoint (h1 :: xs) (h2 :: ys) := by
    intro a ha hb
    refine hdis ?_ hb
    rcases List.mem_cons.mp ha with rfl | ha
    · exact List.mem_cons_self
    · exact List.mem_cons_of_mem _ (List.mem_cons_of_mem _ ha)
  exact ⟨hx1.addTail_frame hy1 he1 hsub, hy1.addTail he2⟩

section Init

/-- The pool after `k` allocations. -/
structure InitHolds (p : MsgPool) (k : ℕ) : Prop where
  recvRing : p.links.Ring .recv ((List.range k).map .node)
  activeRing : p.links.Ring .active []

theorem bare_holds : InitHolds .bare 0 := by
  refine ⟨?_, Links.ring_initHead _ _⟩
  apply (Links.ring_initHead _ NodeAddr.recv).initHead_frame
  decide

theorem initMsg_holds {alloc : ℕ → Bool} {p q : MsgPool} {k : ℕ} (h : InitHolds p k)
    (hq : snsdInitMsg alloc p k = some q) : InitHolds q (k+1) := by
  rw [snsdInitMsg] at hq
  split at hq
  · obtain rfl := Option.some.inj hq
    have hnew : NodeAddr.node k ∉ NodeAddr.recv :: (List.range k).map NodeAddr.node := by
      simp only [List.mem_cons, List.mem_map, List.mem_range, not_or, not_exists, not_and]
      refine ⟨NodeAddr.noConfusion, ?_⟩
      intro i hi he
      have := NodeAddr.node.inj he
      omega
    have hdis : List.Disjoint [NodeAddr.active] (NodeAddr.recv :: (List.range k).map NodeAddr.node) := by
      simp only [List.singleton_disjoint, List.mem_cons, List.mem_map, not_or, not_exists, not_and]
      exact ⟨NodeAddr.noConfusion, fun _ _ => NodeAddr.noConfusion⟩
    refine ⟨?_, ?_⟩
    · rw [List.range_succ, List.map_append]
      exact h.recvRing.addTail hnew
    · exact h.activeRing.addTail_frame h.recvRing (by simp) hdis
  · cases hq

/-- A pool that initialises has all its nodes free. -/
theorem initMsgResource_holds {alloc : ℕ → Bool} {p : MsgPool}
    (h : snsdInitMsgResource alloc = some p) : p.Holds poolNodes [] := by
  have hrun : ∀ n q, (List.range n).foldlM (snsdInitMsg alloc) .bare = some q → InitHolds q n := by
    intro n
    induction n with
    | zero =>
      intro q hq
      obtain rfl := Option.some.inj hq
      exact bare_holds
    | succ n ih =>
      intro q hq
      rw [List.range_succ, List.foldlM_append] at hq
      obtain ⟨r, hr, hq⟩ := Option.bind_eq_some_iff.mp hq
      rw [List.foldlM_cons] at hq
      obtain ⟨t, ht, hq⟩ := Option.bind_eq_some_iff.mp hq
      obtain rfl := Option.some.inj hq
      exact initMsg_holds (ih r hr) ht
  have hi := hrun _ p h
  exact ⟨hi.recvRing, hi.activeRing, by rw [List.append_nil]⟩

end Init

section Post
variable {p : MsgPool} {free active : List NodeAddr} {msg : NtMsg}

theorem post_full (h : p.Holds [] active) (hrole : msg.roleType ≠ snsdClient) :
    snsdPostOneMsg p msg = (p, -1) := by
  have he : p.links.isEmpty .recv = true := h.recvRing.isEmpty_iff.mpr rfl
  rw [snsdPostOneMsg, if_neg hrole, he]
  rfl

/-- A post moves the first free node to the end of the active list. -/
theorem post_free {e : NodeAddr} (h : p.Holds (e :: free) active) (hrole : msg.roleType ≠ snsdClient) :
    ∃ q, snsdPostOneMsg p msg = (q, 0) ∧ q.Holds free (active ++ [e]) ∧ q.msg e = msg ∧
      ∀ a ∈ active, q.msg a = p.msg a := by
  have he : p.links.isEmpty .recv = false := by
    rw [Bool.eq_false_iff]
    intro he
    exact List.cons_ne_nil _ _ (h.recvRing.isEmpty_iff.mp he)
  have hn : p.links.next .recv = e := h.recvRing.next_head_cons
  obtain ⟨h1, h2⟩ := move_first h.recvRing h.activeRing h.rings_disjoint
  refine ⟨⟨(p.links.del e).addTail e .active, Function.update p.msg e msg⟩, ?_, ⟨h1, h2, ?_⟩,
    Function.update_self .., ?_⟩
  · rw [snsdPostOneMsg, if_neg hrole, he, hn]
    rfl
  · refine (List.Perm.trans ?_ h.nodes)
    rw [← List.append_assoc]
    exact List.perm_append_singleton e (free ++ active)
  · intro a ha
    have hne : a ≠ e := by
      rintro rfl
      exact List.disjoint_of_nodup_append h.nodup List.mem_cons_self ha
    exact Function.update_of_ne hne ..

/-- A post fails exactly when every node is pending. -/
theorem post_fails_iff (h : p.Holds free active) (hrole : msg.roleType ≠ snsdClient) :
    (snsdPostOneMsg p msg).2 ≠ 0 ↔ active.length = snsdMaxMsgNum := by
  have hl := h.length_add
  cases free with
  | nil =>
    rw [post_full h hrole]
    rw [List.length_nil, Nat.zero_add] at hl
    exact ⟨fun _ => hl, fun _ => (by decide : (-1 : ℤ) ≠ 0)⟩
  | cons e free =>
    obtain ⟨q, hq, _⟩ := post_free h hrole
    rw [hq]
    rw [List.length_cons] at hl
    exact ⟨fun hne => absurd rfl hne, fun he => by omega⟩

end Post

section Dispatch
variable {p : MsgPool} {free active : List NodeAddr}

theorem dispatchStart_cur (h : p.Holds free active) :
    p.dispatchStart.cur = (active ++ [NodeAddr.active]).head (by simp) := by
  cases active with
  | nil => exact h.activeRing.next_head_nil
  | cons e as => exact h.activeRing.next_head_cons

theorem dispatchStart_done_iff (h : p.Holds free active) :
    p.dispatchStart.cur = .active ↔ active = [] := by
  rw [dispatchStart_cur h]
  cases active with
  | nil => exact ⟨fun _ => rfl, fun _ => rfl⟩
  | cons e as =>
    have hne := (h.mem_ne (List.mem_append_right _ List.mem_cons_self)).2
    exact ⟨fun he => absurd he hne, fun he => absurd he (List.cons_ne_nil _ _)⟩

/-- An iteration gives the first pending message to its call and its node back,
and goes on where a new iteration would start. -/
theorem dispatchNode_spec {e : NodeAddr} (h : p.Holds free (e :: active)) :
    ∃ q, p.dispatchNode p.dispatchStart = (q, q.dispatchStart, dispatchCall (p.msg e)) ∧
      q.Holds (free ++ [e]) active ∧ ∀ a ∈ active, q.msg a = p.msg a := by
  have hcur : p.dispatchStart.cur = e := dispatchStart_cur h
  have hnext : p.dispatchStart.next = (active ++ [NodeAddr.active]).head (by simp) := by
    have ha : p.links.Ring .active ([] ++ e :: active) := h.activeRing
    have hn := ha.next_elem
    rw [← hn]
    exact congrArg p.links.next hcur
  obtain ⟨h1, h2⟩ := move_first h.activeRing h.recvRing h.rings_disjoint.symm
  have hq : MsgPool.Holds ⟨(p.links.del e).addTail e .recv, Function.update p.msg e (NtMsg.init 0)⟩
      (free ++ [e]) active := by
    refine ⟨h2, h1, ?_⟩
    rw [List.append_assoc]
    exact h.nodes
  refine ⟨_, ?_, hq, ?_⟩
  · have hstart := dispatchStart_cur hq
    rw [← hnext] at hstart
    simp only [MsgPool.dispatchNode, hcur]
    rw [← hstart]
    rfl
  · intro a ha
    have hne : a ≠ e := by
      rintro rfl
      exact (List.nodup_cons.mp (List.nodup_cons.mp h.activeRing.nodup).2).1 ha
    exact Function.update_of_ne hne ..

end Dispatch

/-- What every interleaving keeps: the two lists, and that the calls made
followed by the calls still to make are those of the posted messages. -/
structure PoolInv (s : PoolSys) (free active : List NodeAddr) : Prop where
  holds : s.pool.Holds free active
  history : s.calls ++ active.map (fun a => dispatchCall (s.pool.msg a)) = s.posted.map dispatchCall
  cursor : ∀ c, s.holder = some c → c = s.pool.dispatchStart

section Step
variable {s s' : PoolSys} {free active : List NodeAddr}

theorem poolStep_post {msg : NtMsg} (h : PoolInv s free active)
    (hs : poolStep s (.post msg) = some s') : ∃ free' active', PoolInv s' free' active' := by
  simp only [poolStep] at hs
  split at hs
  · obtain rfl := Option.some.inj hs
    exact ⟨free, active, h⟩
  rename_i hrole
  split at hs
  · cases hs
  rename_i hnone
  obtain rfl := Option.some.inj hs
  have hcur : ∀ (q : MsgPool) (c : DispatchCursor), s.holder = some c → c = q.dispatchStart := by
    intro q c hc
    rw [hc] at hnone
    exact absurd rfl hnone
  cases free with
  | nil =>
    refine ⟨[], active, ⟨?_, ?_, hcur _⟩⟩
    · simp only [post_full h.holds hrole]
      exact h.holds
    · simp only [post_full h.holds hrole]
      exact h.history
  | cons e free =>
    obtain ⟨q, hq, hh, he, hold⟩ := post_free h.holds hrole
    refine ⟨free, active ++ [e], ⟨?_, ?_, hcur _⟩⟩
    · simp only [hq]
      exact hh
    · simp only [hq, if_true]
      rw [List.map_append, List.map_append, ← h.history, List.append_assoc]
      congr 2
      · apply List.map_congr_left
        intro a ha
        rw [hold a ha]
      · simp only [List.map_cons, List.map_nil, he]

theorem poolStep_dispatch (h : PoolInv s free active) (hs : poolStep s .dispatch = some s') :
    ∃ e as, active = e :: as ∧ PoolInv s' (free ++ [e]) as ∧ s'.posted = s.posted ∧
      s'.holder.isSome := by
  simp only [poolStep] at hs
  cases hc : s.holder with
  | none =>
    rw [hc] at hs
    cases hs
  | some c =>
    simp only [hc, h.cursor c hc] at hs
    split at hs
    · cases hs
    rename_i hne
    obtain rfl := Option.some.inj hs
    cases active with
    | nil => exact absurd ((dispatchStart_done_iff h.holds).mpr rfl) hne
    | cons e as =>
      obtain ⟨q, hq, hh, hold⟩ := dispatchNode_spec h.holds
      refine ⟨e, as, rfl, ⟨?_, ?_, ?_⟩, rfl, rfl⟩
      · simp only [hq]
        exact hh
      · simp only [hq]
        rw [← h.history, List.map_cons, List.append_assoc, List.singleton_append]
        congr 2
        apply List.map_congr_left
        intro a ha
        rw [hold a ha]
      · intro c' hc'
        simp only [hq] at hc' ⊢
        exact (Option.some.inj hc').symm

theorem poolStep_inv {ev : PoolEvent} (h : PoolInv s free active) (hs : poolStep s ev = some s') :
    ∃ free' active', PoolInv s' free' active' := by
  cases ev with
  | post msg => exact poolStep_post h hs
  | lock =>
    simp only [poolStep] at hs
    cases hc : s.holder with
    | none =>
      rw [hc] at hs
      obtain rfl := Option.some.inj hs
      exact ⟨free, active, h.holds, h.history, fun c hc => (Option.some.inj hc).symm⟩
    | some c =>
      rw [hc] at hs
      cases hs
  | dispatch =>
    obtain ⟨e, as, _, hi, _⟩ := poolStep_dispatch h hs
    exact ⟨_, _, hi⟩
  | unlock =>
    simp only [poolStep] at hs
    cases hc : s.holder with
    | none =>
      rw [hc] at hs
      cases hs
    | some c =>
      simp only [hc] at hs
      split at hs
      · obtain rfl := Option.some.inj hs
        exact ⟨free, active, h.holds, h.history, fun c hc => by cases hc⟩
      · cases hs

end Step

section Run
variable {s s' : PoolSys} {free active : List NodeAddr}

theorem start_inv {p : MsgPool} (h : p.Holds poolNodes []) : PoolInv (.start p) poolNodes [] :=
  ⟨h, rfl, fun _ hc => by cases hc⟩

theorem poolRun_inv {events : List PoolEvent} (h : PoolInv s free active)
    (hs : poolRun s events = some s') : ∃ free' active', PoolInv s' free' active' := by
  induction events generalizing s free active with
  | nil =>
    obtain rfl := Option.some.inj hs
    exact ⟨free, active, h⟩
  | cons ev events ih =>
    rw [poolRun, List.foldlM_cons] at hs
    obtain ⟨t, ht, hs⟩ := Option.bind_eq_some_iff.mp hs
    obtain ⟨free', active', h'⟩ := poolStep_inv h ht
    exact ih h' hs

/-- Once the handler thread holds the mutex its own moves make every call. -/
theorem dispatch_drains (h : PoolInv s free active) (hheld : s.holder.isSome) :
    ∃ s', poolRun s (List.replicate active.length .dispatch ++ [.unlock]) = some s' ∧
      s'.calls = s.posted.map dispatchCall ∧ s'.posted = s.posted := by
  induction active generalizing s free with
  | nil =>
    obtain ⟨c, hc⟩ := Option.isSome_iff_exists.mp hheld
    have hcur : c.cur = .active := by
      rw [h.cursor c hc]
      exact (dispatchStart_done_iff h.holds).mpr rfl
    refine ⟨{ s with holder := none }, ?_, ?_, rfl⟩
    · simp only [poolRun, List.length_nil, List.replicate_zero, List.nil_append, List.foldlM_cons,
        List.foldlM_nil, poolStep, hc, hcur, if_true]
      rfl
    · have hh := h.history
      rw [List.map_nil, List.append_nil] at hh
      exact hh
  | cons e as ih =>
    have hne : s.pool.dispatchStart.cur ≠ .active := fun he =>
      List.cons_ne_nil e as ((dispatchStart_done_iff h.holds).mp he)
    obtain ⟨c, hc⟩ := Option.isSome_iff_exists.mp hheld
    obtain ⟨t, ht⟩ : ∃ t, poolStep s .dispatch = some t := by
      simp only [poolStep, hc, h.cursor c hc, hne, if_false]
      exact ⟨_, rfl⟩
    obtain ⟨e', as', he, hi, hp, hheld'⟩ := poolStep_dispatch h ht
    obtain ⟨rfl, rfl⟩ := List.cons.inj he
    obtain ⟨s', hs', hcalls, hposted⟩ := ih hi hheld'
    refine ⟨s', ?_, by rw [hcalls, hp], by rw [hposted, hp]⟩
    rw [List.length_cons, List.replicate_succ, List.cons_append, poolRun, List.foldlM_cons, ht]
    exact hs'

theorem dispatch_completes (h : PoolInv s free active) :
    ∃ moves s', (∀ e ∈ moves, e = .lock ∨ e = .dispatch ∨ e = .unlock) ∧
      poolRun s moves = some s' ∧ s'.calls = s.posted.map dispatchCall ∧ s'.posted = s.posted := by
  have hmoves (n : ℕ) : ∀ e ∈ List.replicate n PoolEvent.dispatch ++ [.unlock],
      e = .lock ∨ e = .dispatch ∨ e = .unlock := by
    intro e he
    rcases List.mem_append.mp he with he | he
    · exact .inr (.inl (List.eq_of_mem_replicate he))
    · exact .inr (.inr (List.mem_singleton.mp he))
  cases hc : s.holder with
  | some c =>
    obtain ⟨s', hs'⟩ := dispatch_drains h (by rw [hc]; rfl)
    exact ⟨_, s', hmoves _, hs'⟩
  | none =>
    have hl : poolStep s .lock = some { s with holder := some s.pool.dispatchStart } := by
      simp only [poolStep, hc]
    have hi : PoolInv { s with holder := some s.pool.dispatchStart } free active :=
      ⟨h.holds, h.history, fun c hc => (Option.some.inj hc).symm⟩
    obtain ⟨s', hs', hcalls, hposted⟩ := dispatch_drains hi rfl
    refine ⟨.lock :: (List.replicate active.length .dispatch ++ [.unlock]), s', ?_, ?_, hcalls, hposted⟩
    · intro e he
      rcases List.mem_cons.mp he with rfl | he
      · exact .inl rfl
      · exact hmoves _ e he
    · rw [poolRun, List.foldlM_cons, hl]
      exact hs'

end Run

theorem initMsgResource_ok : ∃ p, snsdInitMsgResource (fun _ => true) = some p := by
  have hrun : ∀ n, ∃ q, (List.range n).foldlM (snsdInitMsg fun _ => true) .bare = some q := by
    intro n
    induction n with
    | zero => exact ⟨_, rfl⟩
    | succ n ih =>
      obtain ⟨q, hq⟩ := ih
      rw [List.range_succ, List.foldlM_append, hq]
      exact ⟨_, rfl⟩
  exact hrun _

/-- In every state the threads can reach: the allocated nodes are split over
the two lists, the calls made and still to make are those of the posted
messages in their order, the handler thread by itself makes them all, and a
post fails, changing nothing, exactly when every node is pending. -/
theorem pool_exactly_once {alloc : ℕ → Bool} {p : MsgPool}
    (hinit : snsdInitMsgResource alloc = some p) {events : List PoolEvent} {s : PoolSys}
    (hrun : poolRun (.start p) events = some s) :
    poolNodes.Nodup ∧ poolNodes.length = snsdMaxMsgNum ∧ ∃ free active : List NodeAddr,
      s.pool.links.Ring .recv free ∧ s.pool.links.Ring .active active ∧
      (free ++ active).Perm poolNodes ∧
      s.calls ++ active.map (fun a => dispatchCall (s.pool.msg a)) = s.posted.map dispatchCall ∧
      (∃ moves s', (∀ e ∈ moves, e = .lock ∨ e = .dispatch ∨ e = .unlock) ∧
        poolRun s moves = some s' ∧ s'.calls = s.posted.map dispatchCall ∧ s'.posted = s.posted) ∧
      ∀ msg : NtMsg, msg.roleType ≠ snsdClient →
        ((snsdPostOneMsg s.pool msg).2 ≠ 0 ↔ active.length = snsdMaxMsgNum) ∧
        ((snsdPostOneMsg s.pool msg).2 ≠ 0 → (snsdPostOneMsg s.pool msg).1 = s.pool) := by
  obtain ⟨free, active, h⟩ := poolRun_inv (start_inv (initMsgResource_holds hinit)) hrun
  refine ⟨MsgPool.Holds.poolNodes_nodup, by rw [poolNodes, List.length_map, List.length_range],
    free, active, h.holds.recvRing, h.holds.activeRing, h.holds.nodes, h.history,
    dispatch_completes h, ?_⟩
  intro msg hrole
  refine ⟨post_fails_iff h.holds hrole, ?_⟩
  intro hne
  have hl := (post_fails_iff h.holds hrole).mp hne
  have hadd := h.holds.length_add
  have hfree : free = [] := List.eq_nil_of_length_eq_zero (by omega)
  subst hfree
  rw [post_full h.holds hrole]

theorem pool_exactly_once_one_post : ∃ p, snsdInitMsgResource (fun _ => true) = some p ∧
    ∃ s, poolRun (.start p) [.post (NtMsg.init 1), .lock] = some s ∧
      ∃ free active : List NodeAddr, (free ++ active).Perm poolNodes ∧
        s.calls ++ active.map (fun a => dispatchCall (s.pool.msg a)) =
          s.posted.map dispatchCall := by
  obtain ⟨p, hp⟩ := initMsgResource_ok
  refine ⟨p, hp, _, rfl, ?_⟩
  obtain ⟨_, _, free, active, _, _, hperm, hcalls, _⟩ :=
    pool_exactly_once hp (rfl : poolRun (.start p) [.post (NtMsg.init 1), .lock] = some _)
  exact ⟨free, active, hperm, hcalls⟩

end NvmeSnsd.Server
