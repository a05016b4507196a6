import NvmeSnsd.Mgt.PollRun

/-! What the pollers keep with a port, over a poll of the interfaces. -/
namespace NvmeSnsd.Mgt
open Lib Cfg

section Carried
variable {ρ : Type} {fresh : ρ} {anyProtocol : Int32} {count : UInt32} {group : List Bytes}
  {vlanInfo : Bytes} {ifr : Ifreq} {sys : NetSystem} {nets₀ nets nets' : List (NetInfo ρ)} {ret : ℤ}

/-- Every entry stays in the list with its member of the union; the others are
fresh. -/
structure Carried (fresh : ρ) (nets₀ nets : List (NetInfo ρ)) : Prop where
  nodup : (keys nets).Nodup
  kept : ∀ old ∈ nets₀, ∃ net ∈ nets, net.portInfo.key = old.portInfo.key ∧ net.run = old.run
  origin : ∀ net ∈ nets, (net.portInfo.key ∉ keys nets₀ ∧ net.run = fresh) ∨
    ∃ old ∈ nets₀, old.portInfo.key = net.portInfo.key ∧ net.run = old.run ∧
      (net.portInfo.newPort = false ∨ net = old)

theorem Carried.start (hnodup : (keys nets₀).Nodup) : Carried fresh nets₀ nets₀ where
  nodup := hnodup
  kept := fun old hold => ⟨old, hold, rfl, rfl⟩
  origin := fun net hnet => Or.inr ⟨net, hnet, rfl, rfl, Or.inr rfl⟩

theorem OneEnds.run {net x : NetInfo ρ} {out : Option (NetInfo ρ)}
    (h : OneEnds anyProtocol count group vlanInfo net out ret) (hx : x ∈ out) :
    x.run = net.run ∧ x.portInfo.newPort = net.portInfo.newPort := by
  cases h with
  | dropped => cases hx
  | fails keeps | stale keeps | current keeps =>
    cases hx
    exact ⟨rfl, keeps.newPort⟩

/-- A turn only drops an entry that is new. -/
theorem OneEnds.stays {net : NetInfo ρ} {out : Option (NetInfo ρ)}
    (h : OneEnds anyProtocol count group vlanInfo net out ret)
    (hold : net.portInfo.newPort = false) : ∃ x, x ∈ out := by
  cases h with
  | dropped new => exact absurd (hold.symm.trans new) Bool.false_ne_true
  | fails | stale | current => exact ⟨_, rfl⟩

theorem Carried.turn (h : Carried fresh nets₀ nets)
    (hturn : Turn fresh anyProtocol count group vlanInfo ifr nets nets' ret) :
    Carried fresh nets₀ nets' := by
  obtain ⟨net, out, hview⟩ := hturn.view h.nodup
  refine ⟨hview.nodup, fun old₀ hold₀ => ?_, fun x hx => ?_⟩
  · obtain ⟨x, hx, hkey, hrun⟩ := h.kept old₀ hold₀
    by_cases hne : x.portInfo.key = ifr.key
    · rcases hview.start with ⟨old, hold, hkold, rfl⟩ | ⟨habsent, -⟩
      · obtain rfl := eq_of_key h.nodup hold hx (hkold.trans hne.symm)
        obtain ⟨y, hy⟩ := hview.ends.stays rfl
        refine ⟨y, (hview.mem y).mpr (Or.inl hy), ?_, ?_⟩
        · exact (hview.out_key hy).trans (hne.symm.trans hkey)
        · exact (hview.ends.run hy).1.trans hrun
      · exact absurd (mem_keys.mpr ⟨x, hx, hne⟩) habsent
    · exact ⟨x, (hview.mem x).mpr (Or.inr ⟨hx, hne⟩), hkey, hrun⟩
  · rcases (hview.mem x).mp hx with hout | ⟨hold, -⟩
    · obtain ⟨hrun, hnew⟩ := hview.ends.run hout
      rw [hview.out_key hout]
      rcases hview.start with ⟨old, hold, hkold, rfl⟩ | ⟨habsent, rfl⟩
      · rw [← hkold]
        rcases h.origin old hold with ⟨hnot, hfresh⟩ | ⟨old₀, hold₀, hkey, hsame, -⟩
        · exact Or.inl ⟨hnot, hrun.trans hfresh⟩
        · exact Or.inr ⟨old₀, hold₀, hkey, hrun.trans hsame, Or.inl hnew⟩
      · refine Or.inl ⟨fun hmem => habsent ?_, hrun⟩
        obtain ⟨old₀, hold₀, hkey⟩ := mem_keys.mp hmem
        obtain ⟨y, hy, hykey, -⟩ := h.kept old₀ hold₀
        exact mem_keys.mpr ⟨y, hy, hykey.trans hkey⟩
    · exact h.origin x hold

theorem allNetInfo_carried (hnodup : (keys nets).Nodup)
    (h : snsdAllNetInfo fresh anyProtocol count sys nets = .ok (nets', ret)) :
    Carried fresh nets nets' := by
  rcases allNetInfo_cases h with ⟨-, rfl⟩ | ⟨ifs, r, -, -, hloop⟩
  · exact Carried.start hnodup
  have hrule := getLoop_rule (fun _ mid => Carried fresh nets mid)
    (fun done ifr a b _ hmid hone => hmid.turn (getOne_turn hone)) (List.nil_append _)
    (Carried.start hnodup) hloop
  rcases hrule with ⟨-, hend⟩ | ⟨-, mid, done, ifr, -, hmid, hone⟩
  · exact hend
  · exact hmid.turn (getOne_turn hone)

end Carried

section Poll
variable {ρ : Type} {pton : Pton} {s : CfgState} {fresh : ρ} {mode : SnsdMode} {sys : NetSystem}
  {count : UInt32} {nets polled : List (NetInfo ρ)} {ret : ℤ} {P : ρ → Prop}

/-- Some configuration takes the address of the key. -/
def Taken (pton : Pton) (s : CfgState) (mode : SnsdMode) (k : Bytes × Bytes) : Prop :=
  ∃ e ∈ snsdGetNetCfg s mode, CfgTakes pton s.anyflag mode e k.2

/-- The keys of the entries whose member of the union is in `P`. -/
def HasRun (P : ρ → Prop) (nets : List (NetInfo ρ)) (k : Bytes × Bytes) : Prop :=
  ∃ net ∈ nets, net.portInfo.key = k ∧ P net.run

theorem Carried.hasRun_iff {nets' : List (NetInfo ρ)} (h : Carried fresh nets nets')
    (hfresh : ¬ P fresh) (k : Bytes × Bytes) : HasRun P nets' k ↔ HasRun P nets k := by
  constructor
  · intro ⟨net, hnet, hkey, hrun⟩
    rcases h.origin net hnet with ⟨-, hnew⟩ | ⟨old, hold, hk, hsame, -⟩
    · exact absurd (hnew ▸ hrun) hfresh
    · exact ⟨old, hold, hk.trans hkey, hsame ▸ hrun⟩
  · intro ⟨old, hold, hkey, hrun⟩
    obtain ⟨net, hnet, hk, hsame⟩ := h.kept old hold
    exact ⟨net, hnet, hk.trans hkey, hsame ▸ hrun⟩

theorem dealwith_taken {net : NetInfo ρ} (h : net ∈ snsdDealwithCfg pton s mode nets) :
    Taken pton s mode net.portInfo.key := by
  obtain ⟨old, -, e, ⟨pre, post, hlist, -, htakes⟩, hfill, -⟩ := dealwith_from h
  refine ⟨e, ?_, ?_⟩
  · rw [hlist]
    simp
  · rw [hfill.keeps.key]
    exact htakes

/-- The ports in `P` are in the list after the poll as they were before it, when
their configuration is there and none of them can be taken for a new one. -/
theorem cfgNetInfo_hasRun (hnodup : (keys nets).Nodup) (hfresh : ¬ P fresh)
    (htaken : ∀ net ∈ nets, P net.run → Taken pton s mode net.portInfo.key)
    (hnew : ∀ net ∈ nets, P net.run → net.portInfo.newPort = true →
      net.portInfo.count ≠ count)
    (h : snsdCfgNetInfo pton s fresh mode sys count nets = .ok (polled, ret)) :
    (keys polled).Nodup ∧ (∀ k, HasRun P polled k ↔ HasRun P nets k) ∧
      (ret = 0 → ∀ net ∈ polled, Taken pton s mode net.portInfo.key) := by
  rcases cfgNetInfo_cases h with ⟨hr, rfl⟩ | ⟨collected, r, hall, ⟨hr, -, rfl⟩ | ⟨rfl, rfl, rfl⟩⟩
  · exact ⟨hnodup, fun _ => Iff.rfl, fun hz => absurd hz hr⟩
  · have hc := allNetInfo_carried hnodup hall
    exact ⟨hc.nodup, hc.hasRun_iff hfresh, fun hz => absurd hz hr⟩
  · have hc := allNetInfo_carried hnodup hall
    have hrun (net' : NetInfo ρ)
        (hnet' : net' ∈ snsdProtocolHandle sys count (snsdDealwithCfg pton s mode collected)) :
        ∃ net ∈ snsdDealwithCfg pton s mode collected,
          net'.portInfo.key = net.portInfo.key ∧ net'.run = net.run := by
      obtain ⟨net, hnet, ⟨-, rfl⟩ | ⟨-, hone⟩⟩ := mem_protocolHandle.mp hnet'
      · exact ⟨_, hnet, rfl, rfl⟩
      · exact ⟨net, hnet, (protocolOne_cases hone).1, protocolOne_run hone⟩
    refine ⟨(hc.nodup.sublist keys_dealwith).sublist keys_protocolHandle, fun k => ?_,
      fun _ net' hnet' => ?_⟩
    · rw [← hc.hasRun_iff hfresh]
      constructor
      · intro ⟨net', hnet', hkey, hp⟩
        obtain ⟨net, hnet, hk, hsame⟩ := hrun net' hnet'
        obtain ⟨old, hold, e, -, hfill, hrold⟩ := dealwith_from hnet
        exact ⟨old, hold, hfill.keeps.key.symm.trans (hk.symm.trans hkey),
          hrold ▸ hsame ▸ hp⟩
      · intro ⟨old, hold, hkey, hp⟩
        rcases hc.origin old hold with ⟨-, hf⟩ | ⟨old₀, hold₀, hk₀, hsame, hflag⟩
        · exact absurd (hf ▸ hp) hfresh
        have hp₀ : P old₀.run := hsame ▸ hp
        -- the second pass finds the configuration again
        have hcfg : ∃ e ∈ snsdGetNetCfg s mode,
            CfgTakes pton s.anyflag mode e old.portInfo.addr := by
          have := htaken old₀ hold₀ hp₀
          rw [hk₀] at this
          exact this
        obtain ⟨net, hnet, hk, hcount, hrnet, hnewnet⟩ := dealwith_keeps hold hcfg
        -- and the third drops new ports only
        by_cases hcur : net.portInfo.count = count
        · have hold' : net.portInfo.newPort = false := by
            rw [hnewnet]
            rcases hflag with hfalse | rfl
            · exact hfalse
            · by_contra hnot
              exact hnew old hold₀ hp₀ (Bool.eq_true_of_not_eq_false hnot) (hcount ▸ hcur)
          obtain ⟨net', hone⟩ := protocolOne_old sys hold'
          exact ⟨net', mem_protocolHandle.mpr ⟨net, hnet, Or.inr ⟨hcur, hone⟩⟩,
            (protocolOne_cases hone).1.trans (hk.trans hkey),
            (protocolOne_run hone).symm ▸ hrnet.symm ▸ hp⟩
        · exact ⟨net, mem_protocolHandle.mpr ⟨net, hnet, Or.inl ⟨hcur, rfl⟩⟩, hk.trans hkey,
            hrnet.symm ▸ hp⟩
    · obtain ⟨net, hnet, hk, -⟩ := hrun net' hnet'
      rw [hk]
      exact dealwith_taken hnet

end Poll

end NvmeSnsd.Mgt
