import NvmeSnsd.Server.ListenerSpec

/-! Which destinations a listener accepts, against the addresses that were
registered for it. -/
namespace NvmeSnsd.Server
open Lib

/-- The address as it is registered: an IPv4 address is padded with zeros. -/
def NtMsg.dst (m : NtMsg) : Bytes := if m.family = AF_INET then m.dstIpv4 else m.dstIpv6

def NtMsg.dstAddr (m : NtMsg) : Mem 16 := (Mem.zero 16).write 0 m.dst

/-- An address that is asked to be added or removed. -/
structure IpUpdate where
  add : Bool
  port : SnsdPortRelatedInfo

def IpUpdate.event (u : IpUpdate) : SnsdSockEvent := if u.add then .addIp else .removeIp

/-- The addresses added and not removed since; adding to a full table fails. -/
def register (s : Finset (Mem 16)) (u : IpUpdate) : Finset (Mem 16) :=
  if u.add then
    if u.port.ip ∈ s ∨ s.card < snsdMaxIpPhyport then insert u.port.ip s else s
  else s.erase u.port.ip

def registered (us : List IpUpdate) : Finset (Mem 16) := us.foldl register ∅

/-- What the updates make of the table. -/
def ipRun (r : SockReplies) (fd : ℕ) (t : SnsdListenerInfo) (us : List IpUpdate) :
    SnsdListenerInfo :=
  us.foldl (fun t u => (snsdUpdateServer r t fd u.port u.event).1) t

/-- The destination passes for an address that it is not: it agrees with a
registered one on the bytes of its family, or it is zero and a slot is free. -/
def Collides (s : Finset (Mem 16)) (m : NtMsg) : Prop :=
  (∃ a ∈ s, snsdIpMatch m.family a.bytes m.dst = true) ∨
    (s.card < snsdMaxIpPhyport ∧ m.dstAddr = Mem.zero 16)

/-- An update of the addresses keeps the descriptors, and the slot's array
holds what is registered. -/
theorem updateIp_step {t : SnsdListenerInfo} {fd : ℕ} {i : Fin snsdMaxListener}
    {s : Finset (Mem 16)} {u : IpUpdate} (r : SockReplies) (hi : t.find fd = some i)
    (hs : SlotSet (Mem.zero 16) (t.listener.get i).hostIp s) (hu : u.port.ip ≠ Mem.zero 16) :
    (snsdUpdateServer r t fd u.port u.event).1.find fd = some i ∧
      SlotSet (Mem.zero 16) ((snsdUpdateServer r t fd u.port u.event).1.listener.get i).hostIp
        (register s u) := by
  unfold register
  by_cases hadd : u.add = true
  · have hev : u.event = .addIp := if_pos hadd
    rw [hev, if_pos hadd, snsdUpdateServer]
    rcases hw : insertSlot (Mem.zero 16) u.port.ip (t.listener.get i).hostIp with _ | w
    · have hfull := (insertSlot_eq_none hs hu).mp hw
      rw [addServerIp_full hi hw, if_neg (by simpa [snsdMaxIpPhyport] using hfull)]
      exact ⟨hi, hs⟩
    · have hroom : u.port.ip ∈ s ∨ s.card < snsdMaxIpPhyport := by
        by_contra hno
        rw [(insertSlot_eq_none hs hu).mpr (by simpa [snsdMaxIpPhyport] using hno)] at hw
        cases hw
      rw [addServerIp_stored hi hw, if_pos hroom, find_modify rfl, modify_self]
      exact ⟨hi, hs.insertSlot hu hw⟩
  · have hev : u.event = .removeIp := if_neg hadd
    rw [hev, if_neg hadd, snsdUpdateServer, removeServerIp_found hi, find_modify rfl, modify_self]
    exact ⟨hi, hs.eraseSlot⟩

theorem ipRun_slotSet {fd : ℕ} {i : Fin snsdMaxListener} (r : SockReplies) {us : List IpUpdate}
    (hus : ∀ u ∈ us, u.port.ip ≠ Mem.zero 16) {t : SnsdListenerInfo} {s : Finset (Mem 16)}
    (hi : t.find fd = some i) (hs : SlotSet (Mem.zero 16) (t.listener.get i).hostIp s) :
    (ipRun r fd t us).find fd = some i ∧
      SlotSet (Mem.zero 16) ((ipRun r fd t us).listener.get i).hostIp (us.foldl register s) := by
  induction us generalizing t s with
  | nil => exact ⟨hi, hs⟩
  | cons u us ih =>
    obtain ⟨hi', hs'⟩ := updateIp_step r hi hs (hus u List.mem_cons_self)
    apply ih (fun v hv => hus v (List.mem_cons_of_mem u hv)) hi' hs'

/-! What the comparison sees. -/

section Match
variable {m : NtMsg}

theorem dst_length : m.dst.length = if m.family = AF_INET then 4 else 16 := by
  unfold NtMsg.dst NtMsg.dstIpv4 NtMsg.dstIpv6
  split_ifs <;> simp

theorem dstAddr_bytes :
    m.dstAddr.bytes = m.dst ++ (Mem.zero 16).bytes.drop m.dst.length := by
  have hlen := dst_length (m := m)
  rw [NtMsg.dstAddr, Mem.write_bytes (by rw [hlen]; split_ifs <;> decide)]
  simp

theorem dstAddr_match (hm : m.family = AF_INET ∨ m.family = AF_INET6) :
    snsdIpMatch m.family m.dstAddr.bytes m.dst = true := by
  have hlen := dst_length (m := m)
  rw [dstAddr_bytes]
  rcases hm with hf | hf
  · rw [hf, if_pos rfl] at hlen
    simp [snsdIpMatch, hf, ipv4AddrLength, ← hlen]
  · rw [hf, if_neg (by decide)] at hlen
    simp [snsdIpMatch, hf, ipv6AddrLength, ← hlen]

/-- Zero matches zero only. -/
theorem zero_match (hm : m.family = AF_INET ∨ m.family = AF_INET6) :
    snsdIpMatch m.family (Mem.zero 16).bytes m.dst = true ↔ m.dstAddr = Mem.zero 16 := by
  have hlen := dst_length (m := m)
  constructor
  · intro h
    have hz : m.dst = List.replicate m.dst.length 0 := by
      rcases hm with hf | hf
      · rw [hf, if_pos rfl] at hlen
        have hne : (AF_INET == AF_INET6) = false := by decide
        simp only [snsdIpMatch, hf, beq_self_eq_true, Bool.true_and, hne, Bool.false_and,
          Bool.or_false, beq_iff_eq, ipv4AddrLength, Mem.zero, List.take_replicate] at h
        rw [List.take_of_length_le hlen.le] at h
        rw [hlen]
        exact h.symm
      · rw [hf, if_neg (by decide)] at hlen
        have hne : (AF_INET6 == AF_INET) = false := by decide
        simp only [snsdIpMatch, hf, beq_self_eq_true, Bool.true_and, hne, Bool.false_and,
          Bool.false_or, beq_iff_eq, ipv6AddrLength, Mem.zero, List.take_replicate] at h
        rw [List.take_of_length_le hlen.le] at h
        rw [hlen]
        exact h.symm
    apply Mem.ext
    rw [dstAddr_bytes, hz, List.length_replicate]
    simp only [Mem.zero, List.drop_replicate, List.replicate_append_replicate]
    congr 1
    split_ifs at hlen <;> omega
  · intro h
    rw [← h]
    exact dstAddr_match hm

theorem check_eq (v : Vector (Mem 16) 64) :
    snsdCheckHostipConsistent v m = true ↔
      ∃ j : Fin 64, snsdIpMatch m.family (v.get j).bytes m.dst = true := by
  have hany (b : Bytes) : (v.toList.any fun h => snsdIpMatch m.family h.bytes b) = true ↔
      ∃ j : Fin 64, snsdIpMatch m.family (v.get j).bytes b = true := by
    rw [List.any_eq_true]
    constructor
    · rintro ⟨x, hx, hmatch⟩
      obtain ⟨j, hj, rfl⟩ := Vector.getElem_of_mem (Vector.mem_toList_iff.mp hx)
      exact ⟨⟨j, hj⟩, hmatch⟩
    · rintro ⟨j, hmatch⟩
      exact ⟨v.get j, Vector.mem_toList_iff.mpr (Vector.getElem_mem j.isLt), hmatch⟩
  unfold snsdCheckHostipConsistent NtMsg.dst
  by_cases hf : m.family = AF_INET
  · rw [if_pos hf, if_pos hf, ← hany, hf]
  · rw [if_neg hf, if_neg hf, hany]

end Match

/-- A destination is accepted as the registered ones are exactly when it is
registered or collides with nothing. -/
theorem hostip_consistent_iff (r : SockReplies) {t : SnsdListenerInfo} {fd : ℕ}
    {i : Fin snsdMaxListener} (hi : t.find fd = some i)
    (hempty : ∀ j : Fin 64, (t.listener.get i).hostIp.get j = Mem.zero 16) {us : List IpUpdate}
    (hus : ∀ u ∈ us, u.port.ip ≠ Mem.zero 16) {m : NtMsg}
    (hm : m.family = AF_INET ∨ m.family = AF_INET6) :
    (ipRun r fd t us).find fd = some i ∧
      ((snsdCheckHostipConsistent ((ipRun r fd t us).listener.get i).hostIp m = true ↔
          m.dstAddr ∈ registered us) ↔
        m.dstAddr ∈ registered us ∨ ¬ Collides (registered us) m) := by
  obtain ⟨hi', hs⟩ := ipRun_slotSet r hus hi (SlotSet.empty hempty)
  change SlotSet _ _ (registered us) at hs
  refine ⟨hi', ?_⟩
  have hcheck : snsdCheckHostipConsistent ((ipRun r fd t us).listener.get i).hostIp m = true ↔
      Collides (registered us) m := by
    rw [check_eq, Collides, snsdMaxIpPhyport, ← hs.free_iff]
    constructor
    · rintro ⟨j, hj⟩
      by_cases hz : ((ipRun r fd t us).listener.get i).hostIp.get j = Mem.zero 16
      · rw [hz] at hj
        exact Or.inr ⟨⟨j, hz⟩, (zero_match hm).mp hj⟩
      · exact Or.inl ⟨_, (hs.mem _).mpr ⟨hz, j, rfl⟩, hj⟩
    · rintro (⟨a, ha, hmatch⟩ | ⟨⟨j, hj⟩, hz⟩)
      · obtain ⟨-, j, rfl⟩ := (hs.mem a).mp ha
        exact ⟨j, hmatch⟩
      · refine ⟨j, ?_⟩
        rw [hj]
        exact (zero_match hm).mpr hz
  -- a registered destination is found whatever else is there
  have hreg : m.dstAddr ∈ registered us → Collides (registered us) m :=
    fun h => Or.inl ⟨_, h, dstAddr_match hm⟩
  rw [hcheck]
  by_cases hr : m.dstAddr ∈ registered us
  · simp only [hr, hreg hr, true_or]
  · simp only [hr, iff_false, false_or]

/-! A table with one listener, on descriptor 3, and an IPv4 notification whose
destination is zero. -/

def allSucceed : SockReplies := ⟨true, true, true, true, true⟩

def somePort : SnsdPortRelatedInfo := ⟨AF_INET, (Mem.zero 16).write 0 [10, 0, 0, 1], Mem.zero 6, 2⟩

def oneListener : SnsdListenerInfo :=
  (snsdUpdateServer allSucceed (snsdInitListeners 0) 3 somePort .create).1

def zeroDestination : NtMsg :=
  { NtMsg.init 0 with map := snsdIpv4NtTlvCompleteFlag, family := AF_INET }

theorem oneListener_find : oneListener.find (3 : ℕ) = some 0 := by decide +kernel

theorem oneListener_empty :
    ∀ j : Fin 64, (oneListener.listener[(0 : Fin snsdMaxListener)]).hostIp.get j = Mem.zero 16 := by
  decide +kernel

theorem hostip_consistent_somePort :
    (ipRun allSucceed 3 oneListener [⟨true, somePort⟩]).find (3 : ℕ) = some 0 ∧
      ((snsdCheckHostipConsistent (ipRun allSucceed 3 oneListener
            [⟨true, somePort⟩]).listener[(0 : Fin snsdMaxListener)].hostIp zeroDestination = true ↔
          zeroDestination.dstAddr ∈ registered [⟨true, somePort⟩]) ↔
        zeroDestination.dstAddr ∈ registered [⟨true, somePort⟩] ∨
          ¬ Collides (registered [⟨true, somePort⟩]) zeroDestination) :=
  hostip_consistent_iff allSucceed oneListener_find oneListener_empty
    (by simp only [List.forall_mem_singleton]; decide) (Or.inl rfl)

/-- Nothing but 10.0.0.1 is registered, and 0.0.0.0 is accepted. -/
theorem zero_destination_accepted :
    snsdCheckMsgComplete zeroDestination.map = true ∧
      ¬ (snsdCheckHostipConsistent (ipRun allSucceed 3 oneListener
            [⟨true, somePort⟩]).listener[(0 : Fin snsdMaxListener)].hostIp zeroDestination = true ↔
          zeroDestination.dstAddr ∈ registered [⟨true, somePort⟩]) := by
  refine ⟨by decide, ?_⟩
  have haccept : snsdCheckHostipConsistent (ipRun allSucceed 3 oneListener
      [⟨true, somePort⟩]).listener[(0 : Fin snsdMaxListener)].hostIp zeroDestination = true := by
    decide +kernel
  have hnot : zeroDestination.dstAddr ∉ registered [⟨true, somePort⟩] := by decide +kernel
  exact fun h => hnot (h.mp haccept)

end NvmeSnsd.Server
