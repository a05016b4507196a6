import NvmeSnsd.Lib.Edits
import NvmeSnsd.Switch.Run

/-! What a poll of the interfaces leaves to the turns: ports that were there, new ones that
hold nothing, and not those that it has dropped. -/
namespace NvmeSnsd.Switch
open Lib Cfg Mgt

/-- A port before and after the poll; `off` says that no interface is on a bond. -/
structure PollSame (off : Prop) (x y : SwitchNet) : Prop where
  key : y.portInfo.key = x.portInfo.key
  run : y.run = x.run
  nameIndex : y.portInfo.nameIndex = x.portInfo.nameIndex
  held : y.portInfo.bonding.heldSlots = x.portInfo.bonding.heldSlots
  known : y.portInfo.newPort = true →
    x.portInfo.newPort = true ∧ y.portInfo.count = x.portInfo.count
  stays : x.portInfo.bonding.valid = true → y.portInfo.bonding.valid = true
  bonded : off → x.portInfo.bonding.valid = false → y.portInfo.bonding = x.portInfo.bonding

structure PollNew (off : Prop) (y : SwitchNet) : Prop where
  run : y.run = LldpRunInfo.zero
  held : y.portInfo.bonding.heldSlots = []
  bonded : off → y.portInfo.bonding.valid = false

/-- What a poll drops: a port without a configuration, and a new one of this poll. -/
def PollDrops (pton : Pton) (s : CfgState) (count : UInt32) (x : SwitchNet) : Prop :=
  ¬Taken pton s .sw x.portInfo.key ∨ x.portInfo.newPort = true ∧ x.portInfo.count = count

section Relation
variable {off : Prop} {x y z : SwitchNet}

theorem PollSame.refl (x : SwitchNet) : PollSame off x x :=
  ⟨rfl, rfl, rfl, rfl, fun h => ⟨h, rfl⟩, id, fun _ _ => rfl⟩

theorem PollSame.trans (h : PollSame off x y) (h' : PollSame off y z) : PollSame off x z where
  key := h'.key.trans h.key
  run := h'.run.trans h.run
  nameIndex := h'.nameIndex.trans h.nameIndex
  held := h'.held.trans h.held
  known := by
    intro hz
    obtain ⟨hy, hcount⟩ := h'.known hz
    exact ⟨(h.known hy).1, hcount.trans (h.known hy).2⟩
  stays := h'.stays ∘ h.stays
  bonded := by
    intro hoff hx
    have hy := h.bonded hoff hx
    rw [h'.bonded hoff (by rw [hy]; exact hx), hy]

theorem PollNew.same (h : PollNew off x) (h' : PollSame off x y) : PollNew off y where
  run := h'.run.trans h.run
  held := h'.held.trans h.held
  bonded := by
    intro hoff
    rw [h'.bonded hoff (h.bonded hoff)]
    exact h.bonded hoff

variable {pton : Pton} {s : CfgState} {count : UInt32}

theorem PollDrops.of_same (h : PollSame off x y) (hy : PollDrops pton s count y) :
    PollDrops pton s count x := by
  rcases hy with hcfg | ⟨hnew, hcount⟩
  · rw [h.key] at hcfg
    exact Or.inl hcfg
  · obtain ⟨hx, hsame⟩ := h.known hnew
    exact Or.inr ⟨hx, hsame.symm.trans hcount⟩

end Relation

section Poll
variable {pton : Pton} {s : CfgState} {anyProtocol : Int32} {count : UInt32} {group : List Bytes}
  {vlanInfo : Bytes} {ifr : Ifreq} {sys : NetSystem} {nets nets' : List SwitchNet} {ret : ℤ}
  {off : Prop}

theorem oneEnds_same {net y : SwitchNet} {out : Option SwitchNet}
    (h : OneEnds anyProtocol count group vlanInfo net out ret) (hy : y ∈ out) :
    y.run = net.run ∧ PollKeeps net.portInfo y.portInfo ∧
      (OffBond group vlanInfo net.portInfo.name → net.portInfo.bonding.valid = false →
        y.portInfo.bonding = net.portInfo.bonding) := by
  cases h with
  | dropped => cases hy
  | fails keeps same vlan unbonded =>
    cases hy
    exact ⟨rfl, keeps, unbonded⟩
  | stale keeps same known noVlan unbonded =>
    cases hy
    exact ⟨rfl, keeps, unbonded⟩
  | current keeps set any hasVlan valid unbonded =>
    cases hy
    exact ⟨rfl, keeps, unbonded⟩

/-- A turn of the loop over the interfaces drops nothing that was there. -/
theorem turn_edited {Drop : SwitchNet → Prop}
    (h : Turn LldpRunInfo.zero anyProtocol count group vlanInfo ifr nets nets' ret)
    (hoff : off → OffBond group vlanInfo (nameArray ifr.ifrName)) :
    Edited (PollSame off) (PollNew off) Drop nets nets' := by
  obtain ⟨pre, net, post, out, hstart, hends, rfl⟩ := h
  have hrefl (m : List SwitchNet) : Edited (PollSame off) (PollNew off) Drop m m :=
    Edited.refl PollSame.refl m
  cases hstart with
  | @old pre old post split key first =>
    subst split
    obtain ⟨y, rfl⟩ : ∃ y, out = some y := by
      obtain ⟨y, hy⟩ := hends.stays rfl
      exact ⟨y, hy⟩
    obtain ⟨hrun, hkeeps, hbond⟩ := oneEnds_same hends rfl
    have hname : old.portInfo.name = nameArray ifr.ifrName := congrArg Prod.fst key
    have hsame : PollSame off old y :=
      { key := hkeeps.key
        run := hrun
        nameIndex := hkeeps.nameIndex
        held := hkeeps.held
        known := by
          intro hnew
          exact absurd (hkeeps.newPort.symm.trans hnew) Bool.false_ne_true
        stays := hkeeps.bonded
        bonded := by
          intro ho hv
          exact hbond (hname ▸ hoff ho) hv }
    exact (hrefl pre).append (.keep hsame (hrefl post))
  | new absent =>
    cases out with
    | none =>
      rw [Option.toList_none, List.nil_append, List.append_nil]
      exact hrefl nets
    | some y =>
      obtain ⟨hrun, hkeeps, hbond⟩ := oneEnds_same hends rfl
      have hnew : PollNew off y :=
        { run := hrun
          held := hkeeps.held
          bonded := by
            intro ho
            exact congrArg BondingInfo.valid (hbond (hoff ho) rfl) }
      have hlast := (hrefl nets).append (.add hnew .nil)
      rwa [List.append_nil] at hlast

theorem allNetInfo_edited {Drop : SwitchNet → Prop} (hdrop : ∀ x y, PollSame sys.NoBond x y → Drop y → Drop x)
    (h : snsdAllNetInfo LldpRunInfo.zero anyProtocol count sys nets = .ok (nets', ret)) :
    Edited (PollSame sys.NoBond) (PollNew sys.NoBond) Drop nets nets' := by
  rcases allNetInfo_cases h with ⟨-, rfl⟩ | ⟨ifs, r, hifs, -, hloop⟩
  · exact Edited.refl PollSame.refl _
  have hone {done : List Ifreq} {ifr : Ifreq} (hpre : done ++ [ifr] <+: sys.interfaces) :
      sys.NoBond → OffBond (bondingGroup sys.bonding) sys.vlanText (nameArray ifr.ifrName) :=
    fun hoff => hoff ifr (hpre.subset (List.mem_append_right _ List.mem_cons_self))
  have htrans {a b c : List SwitchNet}
      (hab : Edited (PollSame sys.NoBond) (PollNew sys.NoBond) Drop a b)
      (hbc : Edited (PollSame sys.NoBond) (PollNew sys.NoBond) Drop b c) :
      Edited (PollSame sys.NoBond) (PollNew sys.NoBond) Drop a c :=
    hab.trans (fun _ _ _ => PollSame.trans) (fun _ _ => PollNew.same) hdrop hbc
  have hall : [] ++ ifs.filter (·.family = AF_INET) = sys.interfaces := by
    rw [NetSystem.interfaces, hifs]
    rfl
  rcases getLoop_rule (fun _ mid => Edited (PollSame sys.NoBond) (PollNew sys.NoBond) Drop nets mid)
    (fun done ifr a b hpre hmid h => htrans hmid (turn_edited (getOne_turn h) (hone hpre)))
    hall (Edited.refl PollSame.refl _) hloop with ⟨-, hend⟩ | ⟨-, mid, done, ifr, hpre, hmid, h⟩
  · exact hend
  · exact htrans hmid (turn_edited (getOne_turn h) (hone hpre))

/-- The ports without a configuration leave the list. -/
theorem dealwith_edited :
    Edited (PollSame off) (PollNew off) (PollDrops pton s count) nets
      (snsdDealwithCfg pton s .sw nets) := by
  apply edited_filterMap
  · intro x _ y hy
    split at hy
    · next e q hmatch =>
      cases hy
      have hkeeps := (matchCfg_first hmatch).2.keeps
      exact
        { key := hkeeps.key
          run := rfl
          nameIndex := hkeeps.nameIndex
          held := congrArg BondingInfo.heldSlots hkeeps.bonding
          known := fun hnew => ⟨hkeeps.newPort.symm.trans hnew, hkeeps.count⟩
          stays := fun hv => (congrArg BondingInfo.valid hkeeps.bonding).trans hv
          bonded := fun _ _ => hkeeps.bonding }
    · cases hy
  · intro x _ hx
    split at hx
    · cases hx
    · next q hmatch =>
      refine Or.inl ?_
      rintro ⟨e, he, htakes⟩
      exact matchCfg_none hmatch e he htakes

theorem protocolOne_same {x y : SwitchNet} (h : snsdProtocolOne sys x = some y) :
    PollSame off x y := by
  have hcases := protocolOne_cases h
  have hindex : y.portInfo.nameIndex = x.portInfo.nameIndex ∧ (y.portInfo.newPort = true →
      x.portInfo.newPort = true ∧ y.portInfo.count = x.portInfo.count) := by
    have hroce : x.portInfo.defaultRoce.nameIndex = x.portInfo.nameIndex := by
      rw [PortInfo.defaultRoce]
      split <;> rfl
    unfold snsdProtocolOne at h
    dsimp only at h
    split_ifs at h with hflag hnew
    · cases h
      exact ⟨hroce, fun hnew => ⟨(defaultRoce_newPort _).symm.trans hnew, defaultRoce_count _⟩⟩
    · cases h
      exact ⟨hroce, fun hy => absurd hy hnew⟩
  exact
    { key := hcases.1
      run := protocolOne_run h
      nameIndex := hindex.1
      held := congrArg BondingInfo.heldSlots hcases.2.1
      known := hindex.2
      stays := fun hv => (congrArg BondingInfo.valid hcases.2.1).trans hv
      bonded := fun _ _ => hcases.2.1 }

/-- New ports of this poll that are not for the protocol leave the list. -/
theorem protocolHandle_edited :
    Edited (PollSame off) (PollNew off) (PollDrops pton s count) nets
      (snsdProtocolHandle sys count nets) := by
  apply edited_filterMap
  · intro x _ y hy
    split at hy
    · cases hy
      exact PollSame.refl x
    · exact protocolOne_same hy
  · intro x _ hx
    split at hx
    · cases hx
    · next hcount =>
      refine Or.inr ⟨?_, not_not.mp hcount⟩
      by_contra hold
      obtain ⟨y, hy⟩ := protocolOne_old sys (Bool.eq_false_iff.mpr hold)
      exact absurd (hx.symm.trans hy) (by simp)

/-- A poll drops only what `PollDrops` says, and leaves ports with a configuration. -/
theorem cfgNetInfo_edited
    (h : snsdCfgNetInfo pton s LldpRunInfo.zero .sw sys count nets = .ok (nets', ret)) :
    Edited (PollSame sys.NoBond) (PollNew sys.NoBond) (PollDrops pton s count) nets nets' ∧
      (ret = 0 → ∀ net ∈ nets', Taken pton s .sw net.portInfo.key) := by
  have hdrop : ∀ x y, PollSame sys.NoBond x y → PollDrops pton s count y → PollDrops pton s count x :=
    fun _ _ => PollDrops.of_same
  rcases cfgNetInfo_cases h with ⟨hr, rfl⟩ | ⟨collected, r, hall, ⟨hr, -, rfl⟩ | ⟨-, -, rfl⟩⟩
  · exact ⟨Edited.refl PollSame.refl _, fun hz => absurd hz hr⟩
  · exact ⟨allNetInfo_edited hdrop hall, fun hz => absurd hz hr⟩
  · have htrans {a b c : List SwitchNet}
        (hab : Edited (PollSame sys.NoBond) (PollNew sys.NoBond) (PollDrops pton s count) a b)
        (hbc : Edited (PollSame sys.NoBond) (PollNew sys.NoBond) (PollDrops pton s count) b c) :
        Edited (PollSame sys.NoBond) (PollNew sys.NoBond) (PollDrops pton s count) a c :=
      hab.trans (fun _ _ _ => PollSame.trans) (fun _ _ => PollNew.same) hdrop hbc
    refine ⟨htrans (htrans (allNetInfo_edited hdrop hall) dealwith_edited) protocolHandle_edited,
      fun _ net hnet => ?_⟩
    obtain ⟨old, hold, ⟨-, rfl⟩ | ⟨-, hone⟩⟩ := mem_protocolHandle.mp hnet
    · exact dealwith_taken hold
    · rw [(protocolOne_cases hone).1]
      exact dealwith_taken hold

end Poll

/-! What the reading of the slaves file keeps, a poll keeps for all ports. -/

section Bonding
variable {pton : Pton} {s : CfgState} {anyProtocol : Int32} {count : UInt32} {group : List Bytes}
  {vlanInfo : Bytes} {ifr : Ifreq} {sys : NetSystem} {nets nets' : List SwitchNet} {ret : ℤ}
  {p q : PortInfo} {P : BondingInfo → Prop}

def KeptByReading (P : BondingInfo → Prop) : Prop :=
  ∀ ifindex group phyIfname file b r,
    snsdCheckGetSlave ifindex group phyIfname file b = .ok r → P b → P r.1

theorem getMixInfo_bonding (hP : KeptByReading P)
    (h : snsdGetMixInfo ifr group vlanInfo p = .ok (q, ret)) (hp : P p.bonding) :
    P q.bonding := by
  unfold snsdGetMixInfo at h
  obtain ⟨⟨vlan, pos⟩, -, h⟩ := bind_eq_ok.mp h
  obtain ⟨⟨p₁, name, r⟩, hphy, h⟩ := bind_eq_ok.mp h
  dsimp only at h hphy
  have hp₁ : P p₁.bonding := by
    split at hphy
    · cases hphy
      exact hp
    · unfold snsdGetPhy at hphy
      split at hphy
      · cases hphy
        exact hp
      · obtain ⟨⟨bonding, r'⟩, hslave, hphy⟩ := bind_eq_ok.mp hphy
        have hb := hP _ _ _ _ _ _ hslave hp
        dsimp only at hphy hb
        split at hphy
        all_goals
          cases hphy
          exact hb
  split at h
  · cases h
    exact hp₁
  · split at h
    all_goals
      cases h
      rw [setVlan_bonding]
      exact hp₁

theorem getOne_bonding (hP : KeptByReading P) (hnew : P ⟨false, false, 0, none, []⟩)
    (h : snsdGetOne LldpRunInfo.zero anyProtocol count group vlanInfo ifr nets = .ok (nets', ret))
    (hnets : ∀ x ∈ nets, P x.portInfo.bonding) : ∀ y ∈ nets', P y.portInfo.bonding := by
  unfold snsdGetOne at h
  rcases hstart : snsdTryFindOld LldpRunInfo.zero count ifr nets with ⟨pre, net, post⟩
  rw [hstart] at h
  have hsplit : (∀ x ∈ pre, P x.portInfo.bonding) ∧ P net.portInfo.bonding ∧
      ∀ x ∈ post, P x.portInfo.bonding := by
    cases tryFindOld_starts hstart with
    | old split key first =>
      subst split
      obtain ⟨hpre, hrest⟩ := List.forall_mem_append.mp hnets
      obtain ⟨hold, hpost⟩ := List.forall_mem_cons.mp hrest
      exact ⟨hpre, hold, hpost⟩
    | new absent => exact ⟨hnets, hnew, fun x hx => absurd hx List.not_mem_nil⟩
  obtain ⟨hpre, hnet, hpost⟩ := hsplit
  have hput (port : PortInfo) (hport : P port.bonding) :
      ∀ y ∈ pre ++ { net with portInfo := port } :: post, P y.portInfo.bonding :=
    List.forall_mem_append.mpr ⟨hpre, List.forall_mem_cons.mpr ⟨hport, hpost⟩⟩
  dsimp only at h
  rcases hmac : snsdGetMacAndFlags ifr net.portInfo with ⟨p₁, r₁⟩
  have hp₁ : P p₁.bonding := by
    rw [(getMacAndFlags_spec hmac).2.2.2.2]
    exact hnet
  rw [hmac] at h
  dsimp only at h
  split at h
  · cases h
    exact hput p₁ hp₁
  · obtain ⟨⟨p₂, r₂⟩, hmix, h⟩ := bind_eq_ok.mp h
    have hp₂ := getMixInfo_bonding hP hmix hp₁
    dsimp only at h
    split at h
    · cases h
      exact hput p₂ hp₂
    · split at h
      · split at h
        · cases h
          exact List.forall_mem_append.mpr ⟨hpre, hpost⟩
        · cases h
          exact hput p₂ hp₂
      · cases h
        exact hput { p₂ with protocol := anyProtocol, count := count } hp₂

theorem cfgNetInfo_bonding (hP : KeptByReading P) (hnew : P ⟨false, false, 0, none, []⟩)
    (h : snsdCfgNetInfo pton s LldpRunInfo.zero .sw sys count nets = .ok (nets', ret))
    (hnets : ∀ x ∈ nets, P x.portInfo.bonding) : ∀ y ∈ nets', P y.portInfo.bonding := by
  have hall {mid : List SwitchNet} {r : ℤ}
      (h : snsdAllNetInfo LldpRunInfo.zero s.anyProtocol count sys nets = .ok (mid, r)) :
      ∀ y ∈ mid, P y.portInfo.bonding := by
    rcases allNetInfo_cases h with ⟨-, rfl⟩ | ⟨ifs, r, hifs, -, hloop⟩
    · exact hnets
    · rcases getLoop_rule (fun _ mid => ∀ y ∈ mid, P y.portInfo.bonding)
        (fun _ _ _ _ _ hmid h => getOne_bonding hP hnew h hmid) (List.nil_append _)
        hnets hloop with ⟨-, hend⟩ | ⟨-, mid, done, ifr, -, hmid, h⟩
      · exact hend
      · exact getOne_bonding hP hnew h hmid
  rcases cfgNetInfo_cases h with ⟨-, rfl⟩ | ⟨collected, r, hcol, ⟨-, -, rfl⟩ | ⟨-, -, rfl⟩⟩
  · exact hnets
  · exact hall hcol
  · intro y hy
    obtain ⟨x, hx, hsame⟩ : ∃ x ∈ snsdDealwithCfg pton s .sw collected,
        y.portInfo.bonding = x.portInfo.bonding := by
      obtain ⟨x, hx, ⟨-, rfl⟩ | ⟨-, hone⟩⟩ := mem_protocolHandle.mp hy
      · exact ⟨y, hx, rfl⟩
      · exact ⟨x, hx, (protocolOne_cases hone).2.1⟩
    obtain ⟨old, hold, e, -, hfill, -⟩ := dealwith_from hx
    rw [hsame, hfill.keeps.bonding]
    exact hall hcol old hold

end Bonding

end NvmeSnsd.Switch
