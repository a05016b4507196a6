import NvmeSnsd.Server.Listener

/-! What each operation on the table of listeners does to its slots. -/
namespace NvmeSnsd.Server
open Lib
attribute [local irreducible] firstIdx

/-- The marker is no descriptor. -/
theorem free_ne (fd : ℕ) : (-1 : ℤ) ≠ fd := by omega

/-! One slot. -/

section Slot
variable {t : SnsdListenerInfo} {i j : Fin snsdMaxListener} {fd : ℤ}
  {f : SnsdListenerSlot → SnsdListenerSlot}

theorem initListeners_get (now : ℤ) (i : Fin snsdMaxListener) :
    (snsdInitListeners now).listener.get i = SnsdListenerSlot.init :=
  Vector.getElem_replicate ..

@[simp] theorem modify_self : (t.modify i f).listener.get i = f (t.listener.get i) :=
  get_setAt_self _ _ _

theorem modify_ne (h : j ≠ i) : (t.modify i f).listener.get j = t.listener.get j :=
  get_setAt_ne _ h _

/-- What `f` keeps of its slot is kept of every slot. -/
theorem modify_keeps {β : Type*} (g : SnsdListenerSlot → β) (h : g (f (t.listener.get i)) = g (t.listener.get i))
    (j : Fin snsdMaxListener) : g ((t.modify i f).listener.get j) = g (t.listener.get j) := by
  by_cases hj : j = i
  · rw [hj, modify_self, h]
  · rw [modify_ne hj]

/-- The descriptors stay where they are. -/
theorem find_modify (h : (f (t.listener.get i)).listeningFd = (t.listener.get i).listeningFd) :
    (t.modify i f).find fd = t.find fd := by
  apply firstIdx_set
  rw [h]

/-- A slot that takes a descriptor which is in an earlier slot already. -/
theorem find_modify_later (hi : t.find fd = some j) (hlt : j < i) :
    (t.modify i f).find fd = some j := by
  obtain ⟨hj, hbefore⟩ := firstIdx_eq_some.mp hi
  refine firstIdx_eq_some.mpr ⟨?_, fun k hk => ?_⟩
  · rw [modify_ne hlt.ne]
    exact hj
  · rw [modify_ne (hk.trans hlt).ne]
    exact hbefore k hk

theorem modify_modify (g : SnsdListenerSlot → SnsdListenerSlot) :
    (t.modify i f).modify i g = t.modify i (g ∘ f) := by
  simp only [SnsdListenerInfo.modify, Function.comp, get_setAt_self, setAt_setAt]

theorem find_holds (h : t.find fd = some i) : (t.listener.get i).listeningFd = fd := by
  simpa using firstIdx_holds h

end Slot

section Found
variable {t : SnsdListenerInfo} {fd : ℤ} {i : Fin snsdMaxListener} {port : SnsdPortRelatedInfo}

theorem addServerIp_stored (hi : t.find fd = some i) {w : Vector (Mem 16) 64}
    (hw : insertSlot (Mem.zero 16) port.ip (t.listener.get i).hostIp = some w) :
    snsdAddServerIp t fd port = (t.modify i fun l => { l with hostIp := w }, 0) := by
  unfold snsdAddServerIp
  rw [hi]
  dsimp only
  rw [hw]

theorem addServerIp_full (hi : t.find fd = some i)
    (hw : insertSlot (Mem.zero 16) port.ip (t.listener.get i).hostIp = none) :
    snsdAddServerIp t fd port = (t, - ENODEV) := by
  unfold snsdAddServerIp
  rw [hi]
  dsimp only
  rw [hw]

theorem removeServerIp_found (hi : t.find fd = some i) :
    snsdRemoveServerIp t fd port =
      (t.modify i fun l => { l with hostIp := eraseSlot (Mem.zero 16) port.ip l.hostIp }, 0) := by
  unfold snsdRemoveServerIp
  rw [hi]

end Found

/-! Creation. -/

/-- The slot is claimed for the descriptor and bound to the port. -/
def claim (t : SnsdListenerInfo) (k : Fin snsdMaxListener) (sockFd : ℤ)
    (port : SnsdPortRelatedInfo) : SnsdListenerInfo :=
  t.modify k fun l =>
    { l with
      listeningFd := sockFd
      addr := ⟨port.family, port.ifindex, htons ethNtsType, port.mac⟩ }

section Create
variable {r : SockReplies} {t : SnsdListenerInfo} {fd : ℤ} {port : SnsdPortRelatedInfo}

theorem setSockOptions_eq_zero :
    snsdSetSockOptions r = 0 ↔ r.addMembership ∧ r.setPriority ∧ r.setNonblock := by
  rcases r with ⟨b, _ | _, _ | _, _ | _, e⟩ <;> simp [snsdSetSockOptions, EPERM]

theorem updateServerSock_claimed {k : Fin snsdMaxListener} (hk : t.find (-1) = some k) :
    snsdUpdateServerSock t fd port = (claim t k fd port, 0) := by
  have hid : snsdLookupListenerId t fd =
      some (t.modify k fun l => { l with listeningFd := fd }, k) := by
    rw [snsdLookupListenerId, hk, Option.map_some]
  unfold snsdUpdateServerSock
  rw [hid]
  dsimp only
  rw [modify_modify]
  rfl

theorem updateServerSock_full (hk : t.find (-1) = none) :
    snsdUpdateServerSock t fd port = (t, - ENXIO) := by
  have hid : snsdLookupListenerId t fd = none := by rw [snsdLookupListenerId, hk, Option.map_none]
  unfold snsdUpdateServerSock
  rw [hid]

/-- Either nothing is touched, or the first free slot is claimed and the
registration decides the result. -/
theorem addServer_cases (r : SockReplies) (t : SnsdListenerInfo) (fd : ℤ)
    (port : SnsdPortRelatedInfo) :
    ((snsdSetSockOptions r ≠ 0 ∨ t.find (-1) = none) ∧ (snsdAddServer r t fd port).1 = t ∧
        (snsdAddServer r t fd port).2 < 0) ∨
      ∃ k, snsdSetSockOptions r = 0 ∧ t.find (-1) = some k ∧
        snsdAddServer r t fd port = (claim t k fd port, snsdEpollAddEvent r) := by
  by_cases hopt : snsdSetSockOptions r = 0
  · rcases hk : t.find (-1) with _ | k
    · refine Or.inl ⟨Or.inr rfl, ?_⟩
      simp only [snsdAddServer, hopt, updateServerSock_full hk, ne_eq, not_true, if_false]
      simp [ ENXIO]
    · refine Or.inr ⟨k, hopt, rfl, ?_⟩
      simp only [snsdAddServer, hopt, updateServerSock_claimed hk, ne_eq, not_true, if_false]
      by_cases he : snsdEpollAddEvent r = 0
      · rw [if_neg (not_not.mpr he), he]
      · rw [if_pos he]
  · refine Or.inl ⟨Or.inl hopt, ?_⟩
    simp only [snsdAddServer, ne_eq, hopt, not_false_eq_true, if_true, true_and]
    rcases r with ⟨b, _ | _, _ | _, _ | _, e⟩ <;> simp [snsdSetSockOptions, EPERM] at hopt ⊢

end Create

end NvmeSnsd.Server
