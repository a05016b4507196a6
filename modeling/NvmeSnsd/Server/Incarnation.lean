import NvmeSnsd.Lib.Run
import NvmeSnsd.Server.HostIp

/-! What a listener inherits from the one that had its slot before. -/
namespace NvmeSnsd.Server
open Lib
attribute [local irreducible] firstIdx

/-- The addresses that a slot holds. -/
def SnsdListenerSlot.addresses (l : SnsdListenerSlot) : Set (Mem 16) :=
  {a | a ≠ Mem.zero 16 ∧ ∃ j : Fin 64, l.hostIp[j] = a}

/-- A slot without host addresses that is not in the drop state. -/
def SnsdListenerSlot.Clean (l : SnsdListenerSlot) : Prop :=
  (∀ j : Fin 64, l.hostIp[j] = Mem.zero 16) ∧ l.dropMonitor.drop = false

/-- The addresses added for the descriptor and not removed since. -/
def since (fd : ℕ) (s : Finset (Mem 16)) : ListenerEvent → Finset (Mem 16)
  | .update fd' port .addIp _ => if fd' = fd then insert port.ip s else s
  | .update fd' port .removeIp _ => if fd' = fd then s.erase port.ip else s
  | _ => s

/-- A creation that fails claims no slot before the listener's own. -/
def ClaimsLater (t : SnsdListenerInfo) (fd : ℕ) (r : SockReplies) : Prop :=
  snsdSetSockOptions r = 0 → ∀ i k, t.find fd = some i → t.find (-1) = some k → i < k

/-- The descriptor is neither closed nor created anew, and its additions succeed. -/
def Undisturbed (fd : ℕ) (t : SnsdListenerInfo) : ListenerEvent → Prop
  | .update fd' port .create r =>
    fd' = fd → (snsdUpdateServer r t fd port .create).2 ≠ 0 ∧ ClaimsLater t fd r
  | .update fd' _ .close _ => fd' ≠ fd
  | .update fd' port .addIp r => fd' = fd → (snsdUpdateServer r t fd port .addIp).2 = 0
  | _ => True

def isFreeOr (fd : ℤ) (l : SnsdListenerSlot) : Bool := l.listeningFd == -1 || l.listeningFd == fd

/-- The first slot that is free or holds the descriptor is clean. -/
def CleanSlot (t : SnsdListenerInfo) (fd : ℕ) : Prop :=
  ∀ i, firstIdx t.listener (isFreeOr fd) = some i → (t.listener.get i).Clean

/-! The slot that a creation leaves to be found. -/

section Claim
variable {t : SnsdListenerInfo} {fd : ℤ} {k : Fin snsdMaxListener} {port : SnsdPortRelatedInfo}

theorem claim_find (hk : t.find (-1) = some k) :
    (claim t k fd port).find fd = firstIdx t.listener (isFreeOr fd) := by
  obtain ⟨hfree, hbefore⟩ := firstIdx_eq_some.mp hk
  have hq : isFreeOr fd (t.listener.get k) = true := by
    rw [isFreeOr, hfree, Bool.true_or]
  obtain ⟨m, hm, hmk⟩ := exists_firstIdx hq
  rw [hm]
  rcases hmk.lt_or_eq with hlt | rfl
  · -- an earlier slot is not free, so it holds the descriptor
    have hown : t.find fd = some m := by
      obtain ⟨hqm, hqbefore⟩ := firstIdx_eq_some.mp hm
      refine firstIdx_eq_some.mpr ⟨?_, fun j hj => ?_⟩
      · rw [isFreeOr, hbefore m hlt, Bool.false_or] at hqm
        exact hqm
      · have hqj := hqbefore j hj
        rw [isFreeOr, Bool.or_eq_false_iff] at hqj
        exact hqj.2
    exact find_modify_later hown hlt
  · apply firstIdx_set_first hm
    · intro x hx
      rw [isFreeOr, hx, Bool.or_true]
    · exact beq_self_eq_true fd

/-- Claiming a slot keeps what the slots held. -/
theorem claim_clean (i : Fin snsdMaxListener) :
    ((claim t k fd port).listener.get i).Clean ↔ (t.listener.get i).Clean := by
  by_cases h : i = k
  · rw [h, claim, modify_self]
    rfl
  · rw [claim, modify_ne h]

end Claim

/-! The steps that leave a listener alone. -/

section Keep
variable {t : SnsdListenerInfo} {fd : ℕ} {i k : Fin snsdMaxListener}
  {f : SnsdListenerSlot → SnsdListenerSlot}

/-- The listener of a descriptor stays in its slot, with its addresses. -/
def Keeps (t t' : SnsdListenerInfo) (fd : ℕ) (i : Fin snsdMaxListener) : Prop :=
  t'.find fd = some i ∧ (t'.listener.get i).hostIp = (t.listener.get i).hostIp

theorem keeps_self (hi : t.find fd = some i) : Keeps t t fd i := ⟨hi, rfl⟩

/-- A step on a slot of another descriptor. -/
theorem keeps_other (hi : t.find fd = some i) (hk : (t.listener.get k).listeningFd ≠ fd)
    (hf : (f (t.listener.get k)).listeningFd ≠ fd) : Keeps t (t.modify k f) fd i := by
  have hne : i ≠ k := by
    rintro rfl
    exact hk (find_holds hi)
  refine ⟨?_, by rw [modify_ne hne]⟩
  rw [← hi]
  apply firstIdx_set
  rw [beq_eq_false_iff_ne.mpr hk, beq_eq_false_iff_ne.mpr hf]

/-- A step that changes neither a descriptor nor an address. -/
theorem keeps_counters (hi : t.find fd = some i)
    (hfd : (f (t.listener.get k)).listeningFd = (t.listener.get k).listeningFd)
    (hip : (f (t.listener.get k)).hostIp = (t.listener.get k).hostIp) : Keeps t (t.modify k f) fd i := by
  refine ⟨(find_modify hfd).trans hi, ?_⟩
  by_cases h : i = k
  · rw [h, modify_self, hip]
  · rw [modify_ne h]

theorem keeps_detect (hi : t.find fd = some i) (now : ℤ) :
    Keeps t (snsdAttackDetect t now) fd i := by
  unfold snsdAttackDetect snsdListenerMonitor
  split_ifs
  · exact keeps_self hi
  · constructor
    · rw [← hi]
      apply firstIdx_congr
      intro j
      rw [map_get]
      rfl
    · rw [map_get]
      rfl

theorem keeps_create {fd' : ℕ} {port : SnsdPortRelatedInfo} {r : SockReplies}
    (hi : t.find fd = some i) (h : fd' = fd → ClaimsLater t fd r) :
    Keeps t (snsdAddServer r t fd' port).1 fd i := by
  rcases addServer_cases r t fd' port with ⟨-, hsame, -⟩ | ⟨k, hopt, hk, heq⟩
  · rw [hsame]
    exact keeps_self hi
  · rw [heq]
    have hfree : (t.listener.get k).listeningFd ≠ fd := by
      rw [find_holds hk]
      exact free_ne fd
    by_cases hfd : fd' = fd
    · have hlt := h hfd hopt i k hi hk
      exact ⟨find_modify_later hi hlt, by rw [claim, modify_ne hlt.ne]⟩
    · exact keeps_other hi hfree (by simpa using hfd)

theorem keeps_close {fd' : ℕ} (hi : t.find fd = some i) (h : fd' ≠ fd) :
    Keeps t (snsdRemoveServer t fd').1 fd i := by
  unfold snsdRemoveServer
  rcases hk : t.find fd' with _ | k
  · exact keeps_self hi
  · refine keeps_other hi ?_ (free_ne fd)
    rw [find_holds hk]
    exact_mod_cast h

theorem keeps_receive (fd' : ℕ) (hi : t.find fd = some i) :
    Keeps t (snsdListenerMsgInc t fd') fd i := by
  unfold snsdListenerMsgInc
  rcases t.find fd' with _ | k
  · exact keeps_self hi
  · exact keeps_counters hi rfl rfl

theorem keeps_addIp {fd' : ℕ} {port : SnsdPortRelatedInfo} (hi : t.find fd = some i)
    (h : fd' ≠ fd) : Keeps t (snsdAddServerIp t fd' port).1 fd i := by
  unfold snsdAddServerIp
  rcases hk : t.find fd' with _ | k
  · exact keeps_self hi
  · have hne : (t.listener.get k).listeningFd ≠ fd := by
      rw [find_holds hk]
      exact_mod_cast h
    dsimp only
    rcases insertSlot (Mem.zero 16) port.ip (t.listener.get k).hostIp with _ | w
    · exact keeps_self hi
    · exact keeps_other hi hne hne

theorem keeps_removeIp {fd' : ℕ} {port : SnsdPortRelatedInfo} (hi : t.find fd = some i)
    (h : fd' ≠ fd) : Keeps t (snsdRemoveServerIp t fd' port).1 fd i := by
  unfold snsdRemoveServerIp
  rcases hk : t.find fd' with _ | k
  · exact keeps_self hi
  · have hne : (t.listener.get k).listeningFd ≠ fd := by
      rw [find_holds hk]
      exact_mod_cast h
    exact keeps_other hi hne hne

end Keep

/-! A run of the table from the creation of a listener. -/

/-- The slot of the descriptor, and what it holds besides the marker. -/
def Holds (fd : ℕ) (i : Fin snsdMaxListener) (t : SnsdListenerInfo) (s : Finset (Mem 16)) : Prop :=
  t.find fd = some i ∧ SlotSet (Mem.zero 16) (t.listener.get i).hostIp (s.erase (Mem.zero 16))

section Run
variable {t : SnsdListenerInfo} {fd : ℕ} {i : Fin snsdMaxListener} {s : Finset (Mem 16)}

theorem Holds.keep {t' : SnsdListenerInfo} (h : Holds fd i t s) (hk : Keeps t t' fd i) :
    Holds fd i t' s := by
  refine ⟨hk.1, ?_⟩
  rw [hk.2]
  exact h.2

theorem Holds.addIp (h : Holds fd i t s) {port : SnsdPortRelatedInfo}
    (hok : (snsdAddServerIp t fd port).2 = 0) :
    Holds fd i (snsdAddServerIp t fd port).1 (insert port.ip s) := by
  obtain ⟨hi, hs⟩ := h
  rcases hw : insertSlot (Mem.zero 16) port.ip (t.listener.get i).hostIp with _ | w
  · rw [addServerIp_full hi hw] at hok
    exact absurd hok (by simp [ENODEV])
  · rw [addServerIp_stored hi hw]
    refine ⟨(find_modify rfl).trans hi, ?_⟩
    rw [modify_self]
    by_cases hz : port.ip = Mem.zero 16
    · rw [hz] at hw ⊢
      rw [Finset.erase_insert_eq_erase, insertSlot_marker hw]
      exact hs
    · rw [Finset.erase_insert_of_ne hz]
      exact hs.insertSlot hz hw

theorem Holds.removeIp (h : Holds fd i t s) (port : SnsdPortRelatedInfo) :
    Holds fd i (snsdRemoveServerIp t fd port).1 (s.erase port.ip) := by
  obtain ⟨hi, hs⟩ := h
  rw [removeServerIp_found hi]
  refine ⟨(find_modify rfl).trans hi, ?_⟩
  rw [modify_self, Finset.erase_right_comm]
  exact hs.eraseSlot

/-- Each step that leaves the descriptor in place does to its addresses what
the event says. -/
theorem Holds.step (h : Holds fd i t s) {e : ListenerEvent} (hok : Undisturbed fd t e) :
    Holds fd i (listenerStep t e) (since fd s e) := by
  cases e with
  | receive fd' => exact h.keep (keeps_receive fd' h.1)
  | detect now => exact h.keep (keeps_detect h.1 now)
  | update fd' port event r =>
    cases event with
    | create => exact h.keep (keeps_create h.1 fun hfd => (hok hfd).2)
    | close => exact h.keep (keeps_close h.1 hok)
    | butt => exact h
    | addIp =>
      rw [since]
      split_ifs with hfd
      · subst hfd
        exact h.addIp (hok rfl)
      · exact h.keep (keeps_addIp h.1 hfd)
    | removeIp =>
      rw [since]
      split_ifs with hfd
      · subst hfd
        exact h.removeIp port
      · exact h.keep (keeps_removeIp h.1 hfd)

theorem Holds.addresses (h : Holds fd i t s) :
    (t.listener.get i).addresses = {a | a ≠ Mem.zero 16 ∧ a ∈ s} := by
  ext a
  have hmem := h.2.mem a
  rw [Finset.mem_erase] at hmem
  exact hmem.symm

end Run

/-- In every run, a listener that was just created shows nothing of earlier
ones, and keeps to its own addresses from then on, exactly when the slot it got
is clean. -/
theorem incarnation_iff (now : ℤ) (before : List ListenerEvent) (fd : ℕ)
    (port : SnsdPortRelatedInfo) (r : SockReplies) {t' : SnsdListenerInfo}
    (hcreate : snsdUpdateServer r (listenerRun (snsdInitListeners now) before) fd port .create =
      (t', 0)) :
    ((∃ i, snsdGetServerListener t' fd = some i ∧ (t'.listener.get i).Clean) ∧
        ∀ after, FoldMeets listenerStep (Undisturbed fd) t' after →
          ∃ i, snsdGetServerListener (listenerRun t' after) fd = some i ∧
            ((listenerRun t' after).listener.get i).addresses =
              {a | a ≠ Mem.zero 16 ∧ a ∈ after.foldl (since fd) ∅}) ↔
      CleanSlot (listenerRun (snsdInitListeners now) before) fd := by
  generalize listenerRun (snsdInitListeners now) before = t at *
  rw [snsdUpdateServer] at hcreate
  rcases addServer_cases r t fd port with ⟨-, -, hneg⟩ | ⟨k, -, hk, heq⟩
  · rw [hcreate] at hneg
    exact absurd hneg (lt_irrefl 0)
  rw [heq] at hcreate
  obtain rfl : claim t k fd port = t' := congrArg Prod.fst hcreate
  unfold snsdGetServerListener
  rw [claim_find hk]
  constructor
  · rintro ⟨⟨i, hi, hclean⟩, -⟩ j hj
    obtain rfl := Option.some.inj (hi.symm.trans hj)
    exact (claim_clean i).mp hclean
  · intro hclean
    have hq : isFreeOr fd (t.listener.get k) = true := by
      rw [isFreeOr, find_holds hk]
      rfl
    obtain ⟨i, hi, -⟩ := exists_firstIdx hq
    have hcl : ((claim t k fd port).listener.get i).Clean := (claim_clean i).mpr (hclean i hi)
    refine ⟨⟨i, hi, hcl⟩, fun after hafter => ?_⟩
    have hstart : Holds fd i (claim t k fd port) ∅ := by
      refine ⟨(claim_find hk).trans hi, ?_⟩
      rw [Finset.erase_empty]
      exact SlotSet.empty hcl.1
    have hend : Holds fd i (listenerRun (claim t k fd port) after) (after.foldl (since fd) ∅) :=
      foldl_relation (fun _ _ _ h hok => h.step hok) hstart hafter
    exact ⟨i, hend.1, hend.addresses⟩

theorem incarnation_first :
    ((∃ i, snsdGetServerListener oneListener (3 : ℕ) = some i ∧ (oneListener.listener.get i).Clean) ∧
        ∀ after, FoldMeets listenerStep (Undisturbed 3) oneListener after →
          ∃ i, snsdGetServerListener (listenerRun oneListener after) (3 : ℕ) = some i ∧
            ((listenerRun oneListener after).listener.get i).addresses =
              {a | a ≠ Mem.zero 16 ∧ a ∈ after.foldl (since 3) ∅}) ↔
      CleanSlot (listenerRun (snsdInitListeners 0) []) 3 :=
  incarnation_iff 0 [] 3 somePort allSucceed (Prod.ext rfl (by decide +kernel))

/-- Descriptor 3 is given an address and closed. -/
def afterClose : SnsdListenerInfo :=
  listenerRun (snsdInitListeners 0)
    [.update 3 somePort .create allSucceed, .update 3 somePort .addIp allSucceed,
      .update 3 somePort .close allSucceed]

/-- The next listener has the address of the one before. -/
theorem address_inherited :
    (snsdUpdateServer allSucceed afterClose 4 somePort .create).2 = 0 ∧
      ¬ ∃ i, snsdGetServerListener (snsdUpdateServer allSucceed afterClose 4 somePort .create).1
          (4 : ℕ) = some i ∧
        ((snsdUpdateServer allSucceed afterClose 4 somePort .create).1.listener.get i).Clean := by
  refine ⟨by decide +kernel, ?_⟩
  rintro ⟨i, hi, hclean⟩
  have hfound : snsdGetServerListener
      (snsdUpdateServer allSucceed afterClose 4 somePort .create).1 (4 : ℕ) = some 0 := by
    decide +kernel
  obtain rfl := Option.some.inj (hfound.symm.trans hi)
  have hheld : ((snsdUpdateServer allSucceed afterClose 4 somePort .create).1.listener[
      (0 : Fin snsdMaxListener)]).hostIp[(0 : Fin 64)] ≠ Mem.zero 16 := by decide +kernel
  exact hheld (hclean.1 0)

end NvmeSnsd.Server
