import NvmeSnsd.Lib.Run
import NvmeSnsd.Server.HostIp

/-! Opening and closing the sockets of listeners: the table against the
descriptors that are open. -/
namespace NvmeSnsd.Server
open Lib
attribute [local irreducible] firstIdx

/-- The table and the descriptors that the kernel has given out. -/
structure Sockets where
  table : SnsdListenerInfo
  opened : Finset ℕ

namespace Sockets

/-- `close(2)` -/
def close (s : Sockets) (fd : ℕ) : Sockets := { s with opened := s.opened.erase fd }

end Sockets

def snsdBindSock (r : SockReplies) : ℤ := if r.bind then 0 else -1

/-- `socket` is the descriptor that the kernel gives, if it gives one. -/
def snsdGetServerSock (socket : Option ℕ) (r : SockReplies) (port : SnsdPortRelatedInfo)
    (s : Sockets) : Sockets × ℤ :=
  match socket with
  | none => (s, -EPERM)
  | some sockFd =>
    let s := { s with opened := insert sockFd s.opened }
    let result := snsdBindSock r
    if result ≠ 0 then (s.close sockFd, result)
    else
      let (table, result) := snsdUpdateServer r s.table sockFd port .create
      let s := { s with table := table }
      if result ≠ 0 then (s.close sockFd, result) else (s, sockFd)

/-- The close event needs no port. -/
def snsdSockClose (sockFd : ℕ) (s : Sockets) : Sockets :=
  Sockets.close { s with table := (snsdRemoveServer s.table sockFd).1 } sockFd

inductive SockCall
  | get (socket : Option ℕ) (port : SnsdPortRelatedInfo) (replies : SockReplies)
  | close (sockFd : ℕ)

/-- The kernel may give any descriptor that is not open. -/
def sockStep (s : Sockets) : SockCall → Option Sockets
  | .get socket port r =>
    if ∀ fd ∈ socket, fd ∉ s.opened then some (snsdGetServerSock socket r port s).1 else none
  | .close sockFd => some (snsdSockClose sockFd s)

/-- The descriptors in the table. -/
def SnsdListenerInfo.held (t : SnsdListenerInfo) : Set ℤ :=
  {fd | fd ≠ -1 ∧ ∃ i : Fin snsdMaxListener, (t.listener.get i).listeningFd = fd}

/-- The registration does not fail with a slot claimed for a new descriptor. -/
def LeavesNoTrace (s : Sockets) (socket : Option ℕ) (r : SockReplies) : Prop :=
  ∀ fd ∈ socket, r.bind = true → snsdSetSockOptions r = 0 → (s.table.find (-1)).isSome →
    r.epollAdd = true ∨ (fd : ℤ) ∈ s.table.held

/-- No two slots hold the same descriptor, and the ones held are open. -/
structure SockInv (s : Sockets) : Prop where
  distinct : ∀ i j : Fin snsdMaxListener,
    (s.table.listener.get i).listeningFd = (s.table.listener.get j).listeningFd →
      (s.table.listener.get i).listeningFd ≠ -1 → i = j
  opened : ∀ fd ∈ s.table.held, ∃ n ∈ s.opened, (n : ℤ) = fd

/-! The column of descriptors. -/

def fds (t : SnsdListenerInfo) : Vector ℤ snsdMaxListener := t.listener.map (·.listeningFd)

section Fds
variable {t : SnsdListenerInfo} {k : Fin snsdMaxListener} {f : SnsdListenerSlot → SnsdListenerSlot}

@[simp] theorem fds_get (i : Fin snsdMaxListener) :
    (fds t).get i = (t.listener.get i).listeningFd := map_get ..

theorem fds_modify : fds (t.modify k f) = setAt (fds t) k (f (t.listener.get k)).listeningFd :=
  Vector.map_set

theorem held_eq {s : Finset ℤ} (h : SlotSet (-1) (fds t) s) (fd : ℤ) : fd ∈ t.held ↔ fd ∈ s := by
  rw [h.mem]
  simp only [fds_get]
  rfl

theorem find_fds {fd : ℤ} (h : t.find fd = some k) : (fds t).get k = fd := by
  rw [fds_get]
  exact find_holds h

theorem find_none_fds {fd : ℤ} (h : t.find fd = none) (i : Fin snsdMaxListener) :
    (fds t).get i ≠ fd := by
  rw [fds_get]
  simpa using firstIdx_eq_none.mp h i

/-- Claiming a slot adds its descriptor to those in the table. -/
theorem claim_held {fd : ℕ} {port : SnsdPortRelatedInfo} (hk : t.find (-1) = some k) :
    (claim t k fd port).held = insert (fd : ℤ) t.held := by
  ext x
  have hget (i : Fin snsdMaxListener) : ((claim t k fd port).listener.get i).listeningFd =
      if i = k then (fd : ℤ) else (t.listener.get i).listeningFd := by
    split_ifs with h
    · rw [h, claim, modify_self]
    · rw [claim, modify_ne h]
  rw [Set.mem_insert_iff]
  constructor
  · rintro ⟨hx, i, hi⟩
    rw [hget] at hi
    split_ifs at hi with h
    · exact Or.inl hi.symm
    · exact Or.inr ⟨hx, i, hi⟩
  · rintro (rfl | ⟨hx, i, hi⟩)
    · exact ⟨(free_ne fd).symm, k, (hget k).trans (if_pos rfl)⟩
    · have hik : i ≠ k := by
        rintro rfl
        exact hx (hi.symm.trans (find_holds hk))
      exact ⟨hx, i, (hget i).trans ((if_neg hik).trans hi)⟩

end Fds

/-! One call. -/

section Get
variable {s : Sockets} {fd : ℕ} {r : SockReplies} {port : SnsdPortRelatedInfo}

theorem getServerSock_unbound (h : r.bind = false) :
    snsdGetServerSock (some fd) r port s =
      (Sockets.close { s with opened := insert fd s.opened } fd, -1) := by
  unfold snsdGetServerSock snsdBindSock
  simp only [h]
  rfl

theorem getServerSock_bound (h : r.bind = true) :
    snsdGetServerSock (some fd) r port s =
      if (snsdAddServer r s.table fd port).2 ≠ 0 then
        (Sockets.close ⟨(snsdAddServer r s.table fd port).1, insert fd s.opened⟩ fd,
          (snsdAddServer r s.table fd port).2)
      else (⟨(snsdAddServer r s.table fd port).1, insert fd s.opened⟩, (fd : ℤ)) := by
  unfold snsdGetServerSock snsdBindSock
  simp only [h]
  rfl

/-- A creation that fails leaves the descriptors of the table as they were
exactly when the registration is not what fails. -/
theorem getServerSock_held_iff (socket : Option ℕ) :
    ((snsdGetServerSock socket r port s).2 < 0 →
        (snsdGetServerSock socket r port s).1.table.held = s.table.held) ↔
      LeavesNoTrace s socket r := by
  cases socket with
  | none =>
    refine iff_of_true (fun _ => rfl) ?_
    intro fd hfd
    cases hfd
  | some fd =>
    by_cases hbind : r.bind = true
    · rw [getServerSock_bound hbind]
      rcases addServer_cases r s.table fd port with ⟨hcase, hsame, hneg⟩ | ⟨k, hopt, hk, heq⟩
      · rw [if_pos hneg.ne, hsame]
        refine iff_of_true (fun _ => rfl) ?_
        intro _ _ _ hopt hfree
        rcases hcase with h | h
        · exact absurd hopt h
        · rw [h] at hfree
          exact absurd hfree (by decide)
      · rw [heq]
        by_cases hep : r.epollAdd = true
        · have hzero : snsdEpollAddEvent r = 0 := if_pos hep
          rw [hzero, if_neg fun h => h rfl]
          refine iff_of_true (fun h => absurd h (by simp)) ?_
          intro _ _ _ _ _
          exact Or.inl hep
        · have hneg : snsdEpollAddEvent r = -EPERM := if_neg hep
          rw [hneg, if_pos (show -EPERM ≠ 0 by decide)]
          change (-EPERM < 0 → (claim s.table k fd port).held = s.table.held) ↔ _
          rw [claim_held hk, Set.insert_eq_self]
          constructor
          · intro h _ hfd _ _ _
            obtain rfl := Option.mem_some_iff.mp hfd
            exact Or.inr (h (by decide))
          · intro h _
            rcases h fd rfl hbind hopt (by rw [hk]; rfl) with h | h
            · exact absurd h hep
            · exact h
    · rw [getServerSock_unbound (by simpa using hbind)]
      refine iff_of_true (fun _ => rfl) ?_
      intro _ _ h
      exact absurd h hbind

end Get

/-! Runs. -/

/-- The descriptors of the table, each in one slot, are open. -/
def Tracked (s : Sockets) : Prop :=
  ∃ held : Finset ℤ, SlotSet (-1) (fds s.table) held ∧ ∀ fd ∈ held, ∃ n ∈ s.opened, (n : ℤ) = fd

section Tracked
variable {s s' : Sockets}

theorem Tracked.inv (h : Tracked s) : SockInv s := by
  obtain ⟨held, hset, hopen⟩ := h
  constructor
  · intro i j hij hne
    apply hset.inj i j
    · rw [fds_get, fds_get, hij]
    · rwa [fds_get]
  · intro fd hfd
    exact hopen fd ((held_eq hset fd).mp hfd)

theorem tracked_init (now : ℤ) (opened : Finset ℕ) : Tracked ⟨snsdInitListeners now, opened⟩ := by
  refine ⟨∅, SlotSet.empty fun i => ?_, fun fd h => absurd h (Finset.notMem_empty fd)⟩
  rw [fds_get, initListeners_get]
  rfl

/-- A descriptor that is not in the table may be opened and closed again. -/
theorem Tracked.reopen {fd : ℕ} (h : Tracked s) (hnew : fd ∉ s.opened) :
    Tracked (Sockets.close ⟨s.table, insert fd s.opened⟩ fd) := by
  obtain ⟨held, hset, hopen⟩ := h
  refine ⟨held, hset, fun x hx => ?_⟩
  obtain ⟨n, hn, rfl⟩ := hopen x hx
  refine ⟨n, ?_, rfl⟩
  have hne : n ≠ fd := fun he => hnew (he ▸ hn)
  exact Finset.mem_erase.mpr ⟨hne, Finset.mem_insert_of_mem hn⟩

theorem Tracked.claim {fd : ℕ} {k : Fin snsdMaxListener} {port : SnsdPortRelatedInfo}
    (h : Tracked s) (hk : s.table.find (-1) = some k) (hnew : fd ∉ s.opened) :
    Tracked ⟨Server.claim s.table k fd port, insert fd s.opened⟩ := by
  obtain ⟨held, hset, hopen⟩ := h
  have hnot : (fd : ℤ) ∉ held := by
    intro hmem
    obtain ⟨n, hn, hfd⟩ := hopen fd hmem
    obtain rfl := Int.ofNat_inj.mp hfd
    exact hnew hn
  refine ⟨insert (fd : ℤ) held, ?_, ?_⟩
  · change SlotSet (-1) (fds (s.table.modify k _)) _
    rw [fds_modify]
    exact hset.insert (find_fds hk) (free_ne fd).symm hnot
  · intro x hx
    rcases Finset.mem_insert.mp hx with rfl | hx
    · exact ⟨fd, Finset.mem_insert_self fd s.opened, rfl⟩
    · obtain ⟨n, hn, rfl⟩ := hopen x hx
      exact ⟨n, Finset.mem_insert_of_mem hn, rfl⟩

theorem Tracked.close (h : Tracked s) (fd : ℕ) : Tracked (snsdSockClose fd s) := by
  obtain ⟨held, hset, hopen⟩ := h
  have hset' : SlotSet (-1) (fds (snsdRemoveServer s.table fd).1) (held.erase (fd : ℤ)) := by
    unfold snsdRemoveServer
    rcases hk : s.table.find fd with _ | k
    · rwa [Finset.erase_eq_of_notMem]
      intro hmem
      obtain ⟨-, i, hi⟩ := (hset.mem fd).mp hmem
      exact find_none_fds hk i hi
    · change SlotSet (-1) (fds (s.table.modify k _)) _
      rw [fds_modify]
      exact hset.erase (find_fds hk)
  refine ⟨held.erase (fd : ℤ), hset', fun x hx => ?_⟩
  obtain ⟨hne, hx⟩ := Finset.mem_erase.mp hx
  obtain ⟨n, hn, rfl⟩ := hopen x hx
  exact ⟨n, Finset.mem_erase.mpr ⟨fun he => hne (congrArg _ he), hn⟩, rfl⟩

theorem Tracked.get {fd : ℕ} {r : SockReplies} {port : SnsdPortRelatedInfo} (h : Tracked s)
    (hnew : fd ∉ s.opened) (hok : LeavesNoTrace s (some fd) r) :
    Tracked (snsdGetServerSock (some fd) r port s).1 := by
  by_cases hbind : r.bind = true
  · rw [getServerSock_bound hbind]
    rcases addServer_cases r s.table fd port with ⟨-, hsame, hneg⟩ | ⟨k, hopt, hk, heq⟩
    · rw [if_pos hneg.ne, hsame]
      exact h.reopen hnew
    · have hep : r.epollAdd = true := by
        rcases hok fd rfl hbind hopt (by rw [hk]; rfl) with hep | hheld
        · exact hep
        · -- what the table holds is open, and the kernel gave a closed one
          obtain ⟨n, hn, hfd⟩ := h.inv.opened fd hheld
          obtain rfl := Int.ofNat_inj.mp hfd
          exact absurd hn hnew
      have hzero : snsdEpollAddEvent r = 0 := if_pos hep
      rw [heq, hzero, if_neg fun h => h rfl]
      exact h.claim hk hnew
  · rw [getServerSock_unbound (by simpa using hbind)]
    exact h.reopen hnew

theorem Tracked.step {c : SockCall} (h : Tracked s)
    (hok : ∀ socket port r, c = .get socket port r → LeavesNoTrace s socket r)
    (hstep : sockStep s c = some s') : Tracked s' := by
  cases c with
  | close fd =>
    obtain rfl := Option.some.inj hstep
    exact h.close fd
  | get socket port r =>
    rw [sockStep] at hstep
    split_ifs at hstep with hnew
    obtain rfl := Option.some.inj hstep
    cases socket with
    | none => exact h
    | some fd => exact h.get (hnew fd rfl) (hok _ _ _ rfl)

end Tracked

/-- The condition on a call. -/
def TracelessCall (s : Sockets) : SockCall → Prop
  | .get socket _ r => LeavesNoTrace s socket r
  | .close _ => True

/-- Exactly the creations that fail at the registration change the descriptors
of the table. In a run without any, no two slots hold the same descriptor and
the descriptors held are open. -/
theorem failed_creation_traceless (s : Sockets) (socket : Option ℕ) (port : SnsdPortRelatedInfo)
    (r : SockReplies) :
    (((snsdGetServerSock socket r port s).2 < 0 →
          (snsdGetServerSock socket r port s).1.table.held = s.table.held) ↔
        LeavesNoTrace s socket r) ∧
      ∀ (now : ℤ) (opened : Finset ℕ) (calls : List SockCall) (s : Sockets),
        RunMeets sockStep TracelessCall ⟨snsdInitListeners now, opened⟩ calls →
          run sockStep ⟨snsdInitListeners now, opened⟩ calls = some s → SockInv s := by
  refine ⟨getServerSock_held_iff socket, fun now opened calls s hok hrun => ?_⟩
  apply Tracked.inv
  refine run_meets_invariant (fun s c s' h hc hstep => ?_) (tracked_init now opened) hok hrun
  apply h.step _ hstep
  rintro socket port r rfl
  exact hc

/-- Descriptor 3 is created, closed and created again. -/
def reopening : List SockCall :=
  [.get (some 3) somePort allSucceed, .close 3, .get (some 3) somePort allSucceed]

theorem failed_creation_traceless_reopening :
    ∃ s, run sockStep ⟨snsdInitListeners 0, ∅⟩ reopening = some s ∧ SockInv s := by
  have hsome : (run sockStep ⟨snsdInitListeners 0, ∅⟩ reopening).isSome := by decide +kernel
  obtain ⟨s, hs⟩ := Option.isSome_iff_exists.mp hsome
  have hok : RunMeets sockStep TracelessCall ⟨snsdInitListeners 0, ∅⟩ reopening :=
    ⟨fun _ _ _ _ _ => Or.inl rfl, fun _ _ => ⟨trivial, fun _ _ =>
      ⟨fun _ _ _ _ _ => Or.inl rfl, fun _ _ => trivial⟩⟩⟩
  have htraceless := failed_creation_traceless ⟨snsdInitListeners 0, ∅⟩ (some 3) somePort allSucceed
  exact ⟨s, hs, htraceless.2 0 ∅ reopening s hok hs⟩

def registrationFails : SockReplies := { allSucceed with epollAdd := false }

/-- The registration of descriptor 3 fails: it is closed and stays in the
table, and the next creation that gets it holds it a second time. -/
def afterFailure : Sockets :=
  (snsdGetServerSock (some 3) registrationFails somePort ⟨snsdInitListeners 0, ∅⟩).1

theorem closed_descriptor_held :
    (snsdGetServerSock (some 3) registrationFails somePort ⟨snsdInitListeners 0, ∅⟩).2 < 0 ∧
      (3 : ℤ) ∉ (snsdInitListeners 0).held ∧ (3 : ℤ) ∈ afterFailure.table.held ∧
      3 ∉ afterFailure.opened ∧
      ∃ i j : Fin snsdMaxListener, i ≠ j ∧
        ((snsdGetServerSock (some 3) allSucceed somePort afterFailure).1.table.listener.get i).listeningFd =
          3 ∧
        ((snsdGetServerSock (some 3) allSucceed somePort afterFailure).1.table.listener.get j).listeningFd =
          3 := by
  refine ⟨by decide +kernel, ?_, ?_, by decide +kernel, 0, 1, by decide, by decide +kernel,
    by decide +kernel⟩
  · rintro ⟨-, i, hi⟩
    rw [initListeners_get] at hi
    exact absurd hi (by decide)
  · exact ⟨by decide, 0, by decide +kernel⟩

end NvmeSnsd.Server
