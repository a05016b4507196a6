import NvmeSnsd.Mgt.Carried

/-! The VLAN of a port and the mark of its change, over a poll of the interfaces. -/
namespace NvmeSnsd.Mgt
open Lib Cfg

/-- The VLAN of a port and its mark. -/
def PortInfo.mark (p : PortInfo) : Int16 × Bool := (p.vlan, p.vlanChange)

/-- What a visit that finds the VLAN makes of them. -/
def markVisit (vlan : Int16) (m : Int16 × Bool) : Int16 × Bool :=
  (vlan, if m.1 = vlan then false else if m.1 = SNSD_INVALID_VLAN then m.2 else true)

theorem VlanSet.mark {vlanInfo : Bytes} {p q : PortInfo} {vlan : Int16}
    (h : VlanSet vlanInfo p q vlan) : q.mark = markVisit vlan p.mark := by
  rw [PortInfo.mark, h.stored, h.flag, setVlan_change]
  rfl

/-- A second visit clears the mark. -/
theorem markVisit_twice (vlan : Int16) (n : ℕ) (m : Int16 × Bool) :
    (markVisit vlan)^[n+2] m = (vlan, false) := by
  have hsame (x : Int16 × Bool) : markVisit vlan (markVisit vlan x) = (vlan, false) :=
    Prod.ext rfl (if_pos rfl)
  rw [Function.iterate_succ_apply', Function.iterate_succ_apply', hsame]

section Visits
variable {ρ : Type} {fresh : ρ} {anyProtocol : Int32} {count : UInt32} {group : List Bytes}
  {vlanInfo : Bytes} {ifr : Ifreq} {done : List Ifreq} {sys : NetSystem}
  {nets₀ nets nets' : List (NetInfo ρ)}

/-- The list while the interfaces of a snapshot are gone through. -/
structure Marked (count : UInt32) (vlanInfo : Bytes) (nets₀ : List (NetInfo ρ))
    (done : List Ifreq) (nets : List (NetInfo ρ)) : Prop where
  mark : ∀ old ∈ nets₀, ∀ net ∈ nets, net.portInfo.key = old.portInfo.key →
    ∀ vlan pos, snsdFillVlan old.portInfo.name vlanInfo = .ok (vlan, pos) →
      net.portInfo.mark =
        (markVisit vlan)^[(done.map Ifreq.key).count old.portInfo.key] old.portInfo.mark
  stored : ∀ net ∈ nets, net.portInfo.key ∈ done.map Ifreq.key →
    ∀ vlan pos, snsdFillVlan net.portInfo.name vlanInfo = .ok (vlan, pos) →
      net.portInfo.vlan = vlan
  current : ∀ net ∈ nets, net.portInfo.count = count →
    net.portInfo.key ∈ done.map Ifreq.key ∧ HasVlan vlanInfo net.portInfo.name

theorem Marked.start (hnodup : (keys nets₀).Nodup)
    (hcount : ∀ net ∈ nets₀, net.portInfo.count ≠ count) : Marked count vlanInfo nets₀ [] nets₀ where
  mark := by
    intro old hold net hnet hkey vlan pos _
    rw [eq_of_key hnodup hnet hold hkey]
    rfl
  stored := fun _ _ h => absurd h List.not_mem_nil
  current := fun net hnet h => absurd h (hcount net hnet)

/-- A visit without an error stores the VLAN, and counts the port if it has one. -/
theorem OneEnds.visited {net x : NetInfo ρ} {out : Option (NetInfo ρ)}
    (h : OneEnds anyProtocol count group vlanInfo net out 0) (hx : x ∈ out) :
    ∃ vlan, VlanSet vlanInfo net.portInfo x.portInfo vlan ∧
      ((vlan ≠ SNSD_INVALID_VLAN) ∨
        net.portInfo.newPort = false ∧ x.portInfo.count = net.portInfo.count) := by
  cases h with
  | fails keeps same vlan unbonded fail => exact absurd rfl fail
  | dropped => cases hx
  | stale keeps same known noVlan =>
    cases hx
    exact ⟨_, noVlan, Or.inr ⟨known, same⟩⟩
  | current keeps set any hasVlan valid =>
    cases hx
    exact ⟨_, hasVlan, Or.inl valid⟩

theorem Marked.turn (h : Marked count vlanInfo nets₀ done nets) (hc : Carried fresh nets₀ nets)
    (hturn : Turn fresh anyProtocol count group vlanInfo ifr nets nets' 0) :
    Marked count vlanInfo nets₀ (done ++ [ifr]) nets' := by
  obtain ⟨net, out, hview⟩ := hturn.view hc.nodup
  have hdone (k : Bytes × Bytes) : ((done ++ [ifr]).map Ifreq.key).count k =
      (done.map Ifreq.key).count k + if ifr.key = k then 1 else 0 := by
    rw [List.map_append, List.count_append, List.map_singleton, List.count_singleton]
    simp
  have hmem (k : Bytes × Bytes) :
      k ∈ (done ++ [ifr]).map Ifreq.key ↔ k ∈ done.map Ifreq.key ∨ k = ifr.key := by
    simp [eq_comm]
  have hname : net.portInfo.name = ifr.key.1 := congrArg Prod.fst hview.start_key
  constructor
  · intro old hold x hx hkey vlan pos hfill
    rcases (hview.mem x).mp hx with hout | ⟨hx, hne⟩
    · -- one visit more
      have hkx : ifr.key = old.portInfo.key := (hview.out_key hout).symm.trans hkey
      rw [hdone, if_pos hkx, Function.iterate_succ_apply']
      obtain ⟨vlan', hset, -⟩ := hview.ends.visited hout
      obtain rfl : vlan' = vlan := by
        obtain ⟨pos', hfill'⟩ := hset.found
        rw [hname, hkx] at hfill'
        exact congrArg Prod.fst (Except.ok.inj (hfill'.symm.trans hfill))
      rw [hset.mark]
      congr 1
      rcases hview.start with ⟨y, hy, hky, rfl⟩ | ⟨habsent, -⟩
      · exact h.mark old hold y hy (hky.trans hkx) _ pos hfill
      · obtain ⟨y, hy, hky, -⟩ := hc.kept old hold
        exact absurd (mem_keys.mpr ⟨y, hy, hky.trans hkx.symm⟩) habsent
    · rw [hdone, if_neg fun hk => hne (hkey.trans hk.symm), Nat.add_zero]
      exact h.mark old hold x hx hkey vlan pos hfill
  · intro x hx hseen vlan pos hfill
    rcases (hview.mem x).mp hx with hout | ⟨hx, hne⟩
    · obtain ⟨vlan', hset, -⟩ := hview.ends.visited hout
      obtain ⟨pos', hfill'⟩ := hset.found
      have hkx : x.portInfo.name = net.portInfo.name := congrArg Prod.fst (hview.ends.key hout)
      rw [← hkx] at hfill'
      rw [hset.stored]
      exact congrArg Prod.fst (Except.ok.inj (hfill'.symm.trans hfill))
    · exact h.stored x hx (((hmem _).mp hseen).resolve_right hne) vlan pos hfill
  · intro x hx hcount
    rcases (hview.mem x).mp hx with hout | ⟨hx, hne⟩
    · obtain ⟨vlan, hset, hvalid | ⟨hknown, hsame⟩⟩ := hview.ends.visited hout
      · have hkx : x.portInfo.name = net.portInfo.name := congrArg Prod.fst (hview.ends.key hout)
        exact ⟨(hmem _).mpr (Or.inr (hview.out_key hout)), hkx ▸ hset.hasVlan hvalid⟩
      · -- an entry without a VLAN is counted as before
        rcases hview.start with ⟨y, hy, hky, rfl⟩ | ⟨-, rfl⟩
        · have hcur := h.current y hy (hsame.symm.trans hcount)
          have hkx : x.portInfo.key = y.portInfo.key := (hview.out_key hout).trans hky.symm
          have hkname : x.portInfo.name = y.portInfo.name := congrArg Prod.fst hkx
          rw [hkx, hkname]
          exact ⟨(hmem _).mpr (Or.inl hcur.1), hcur.2⟩
        · exact absurd hknown.symm Bool.false_ne_true
    · obtain ⟨hseen, hvlan⟩ := h.current x hx hcount
      exact ⟨(hmem _).mpr (Or.inl hseen), hvlan⟩

theorem allNetInfo_marked (hnodup : (keys nets).Nodup)
    (hcount : ∀ net ∈ nets, net.portInfo.count ≠ count)
    (h : snsdAllNetInfo fresh anyProtocol count sys nets = .ok (nets', 0)) :
    Carried fresh nets nets' ∧ Marked count sys.vlanText nets sys.interfaces nets' := by
  rcases allNetInfo_cases h with ⟨hne, -⟩ | ⟨ifs, r, hifs, -, hloop⟩
  · exact absurd rfl hne
  have hall : [] ++ ifs.filter (·.family = AF_INET) = sys.interfaces := by
    rw [NetSystem.interfaces, hifs]
    rfl
  rcases getLoop_rule (fun done mid => Carried fresh nets mid ∧
      Marked count sys.vlanText nets done mid)
    (fun done ifr a b _ hmid hone => ⟨hmid.1.turn (getOne_turn hone),
      hmid.2.turn hmid.1 (getOne_turn hone)⟩)
    hall ⟨Carried.start hnodup, Marked.start hnodup hcount⟩ hloop with ⟨-, hend⟩ | ⟨hne, -⟩
  · exact hend
  · exact absurd rfl hne

end Visits

section Poll
variable {ρ : Type} {pton : Pton} {s : CfgState} {fresh : ρ} {mode : SnsdMode} {sys : NetSystem}
  {count : UInt32} {nets polled : List (NetInfo ρ)} {x : NetInfo ρ}

theorem protocolOne_mark {net net' : NetInfo ρ} (h : snsdProtocolOne sys net = some net') :
    net'.portInfo.mark = net.portInfo.mark := by
  have hroce : net.portInfo.defaultRoce.mark = net.portInfo.mark := by
    unfold PortInfo.defaultRoce
    split <;> rfl
  unfold snsdProtocolOne at h
  dsimp only at h
  split_ifs at h
  all_goals
    cases h
    exact hroce

/-- What a poll has found of a port that it counts. -/
structure Visited (fresh : ρ) (sys : NetSystem) (nets : List (NetInfo ρ)) (x : NetInfo ρ) :
    Prop where
  listed : x.portInfo.key ∈ sys.interfaces.map Ifreq.key
  vlan : HasVlan sys.vlanText x.portInfo.name ∧ x.portInfo.vlan ≠ SNSD_INVALID_VLAN
  origin : x.run = fresh ∨ ∃ old ∈ nets, old.portInfo.key = x.portInfo.key ∧ x.run = old.run ∧
    ∀ vlan pos, snsdFillVlan x.portInfo.name sys.vlanText = .ok (vlan, pos) →
      x.portInfo.mark =
        (markVisit vlan)^[(sys.interfaces.map Ifreq.key).count x.portInfo.key] old.portInfo.mark

theorem cfgNetInfo_visited (hnodup : (keys nets).Nodup)
    (hold : ∀ net ∈ nets, net.portInfo.count ≠ count)
    (h : snsdCfgNetInfo pton s fresh mode sys count nets = .ok (polled, 0)) (hx : x ∈ polled)
    (hcount : x.portInfo.count = count) : Visited fresh sys nets x := by
  rcases cfgNetInfo_cases h with ⟨hne, -⟩ | ⟨collected, r, hall, ⟨hne, -⟩ | ⟨-, rfl, rfl⟩⟩
  · exact absurd rfl hne
  · exact absurd rfl hne
  obtain ⟨hcarried, hmarked⟩ := allNetInfo_marked hnodup hold hall
  -- the entry behind the two passes
  obtain ⟨y, hy, hkey, hmark, hcnt, hrun⟩ : ∃ y ∈ collected, x.portInfo.key = y.portInfo.key ∧
      x.portInfo.mark = y.portInfo.mark ∧ y.portInfo.count = count ∧ x.run = y.run := by
    obtain ⟨z, hz, ⟨hne, rfl⟩ | ⟨hz', hone⟩⟩ := mem_protocolHandle.mp hx
    · exact absurd hcount hne
    · obtain ⟨y, hy, e, -, hfill, hyrun⟩ := dealwith_from hz
      refine ⟨y, hy, (protocolOne_cases hone).1.trans hfill.keeps.key, ?_, ?_, ?_⟩
      · rw [protocolOne_mark hone]
        exact Prod.ext hfill.keeps.vlan hfill.keeps.vlanChange
      · rw [← hfill.keeps.count, hz']
      · exact (protocolOne_run hone).trans hyrun
  have hname : x.portInfo.name = y.portInfo.name := congrArg Prod.fst hkey
  obtain ⟨hseen, hvlan⟩ := hmarked.current y hy hcnt
  obtain ⟨vlan, pos, hfill, hvalid⟩ := hvlan
  refine ⟨hkey ▸ hseen, ⟨⟨vlan, pos, hname ▸ hfill, hvalid⟩, ?_⟩, ?_⟩
  · have hstored := hmarked.stored y hy hseen vlan pos hfill
    rw [show x.portInfo.vlan = y.portInfo.vlan from congrArg Prod.fst hmark, hstored]
    exact hvalid
  · rcases hcarried.origin y hy with ⟨-, hfresh⟩ | ⟨old, hmem, hkold, hrold, -⟩
    · exact Or.inl (hrun.trans hfresh)
    · refine Or.inr ⟨old, hmem, hkold.trans hkey.symm, hrun.trans hrold, fun vlan pos hfound => ?_⟩
      have hnold : old.portInfo.name = x.portInfo.name := congrArg Prod.fst (hkold.trans hkey.symm)
      rw [hmark, hkey, ← hkold]
      exact hmarked.mark old hmem y hy hkold.symm vlan pos (hnold ▸ hfound)

end Poll

end NvmeSnsd.Mgt
