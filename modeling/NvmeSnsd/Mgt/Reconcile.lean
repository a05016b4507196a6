import NvmeSnsd.Mgt.NetSpec

/-! The list of ports over a run of polls: it has an interface at most once, and
what it counts for a poll is what the poll found. -/
namespace NvmeSnsd.Mgt
open Lib Cfg

section Keys
variable {ρ : Type} {fresh : ρ} {anyProtocol : Int32} {count : UInt32} {group : List Bytes}
  {vlanInfo : Bytes} {ifr : Ifreq} {nets nets' : List (NetInfo ρ)} {ret : ℤ}

def keys (nets : List (NetInfo ρ)) : List (Bytes × Bytes) := nets.map (·.portInfo.key)

theorem mem_keys {k : Bytes × Bytes} : k ∈ keys nets ↔ ∃ net ∈ nets, net.portInfo.key = k :=
  List.mem_map

theorem eq_of_key {x y : NetInfo ρ} (hnodup : (keys nets).Nodup) (hx : x ∈ nets) (hy : y ∈ nets)
    (h : x.portInfo.key = y.portInfo.key) : x = y :=
  List.inj_on_of_nodup_map hnodup hx hy h

/-- A pass that drops entries and keeps the keys of the others. -/
theorem keys_filterMap {f : NetInfo ρ → Option (NetInfo ρ)}
    (hf : ∀ x y, f x = some y → y.portInfo.key = x.portInfo.key) :
    (keys (nets.filterMap f)).Sublist (keys nets) := by
  induction nets with
  | nil => exact List.Sublist.refl _
  | cons x rest ih =>
    cases hx : f x with
    | none =>
      rw [List.filterMap_cons_none hx]
      exact ih.cons _
    | some y =>
      rw [List.filterMap_cons_some hx]
      have hkey : keys (y :: rest.filterMap f) = x.portInfo.key :: keys (rest.filterMap f) := by
        rw [← hf x y hx]
        rfl
      rw [hkey]
      exact ih.cons_cons _

theorem OneEnds.key {net x : NetInfo ρ} {out : Option (NetInfo ρ)}
    (h : OneEnds anyProtocol count group vlanInfo net out ret) (hx : x ∈ out) :
    x.portInfo.key = net.portInfo.key := by
  cases h with
  | dropped => cases hx
  | fails keeps | stale keeps | current keeps =>
    cases hx
    exact keeps.key

/-- A turn, seen by the keys: the entry of the interface is replaced or dropped,
the others stay. -/
structure TurnView (fresh : ρ) (anyProtocol : Int32) (count : UInt32) (group : List Bytes)
    (vlanInfo : Bytes) (ifr : Ifreq) (nets nets' : List (NetInfo ρ)) (ret : ℤ)
    (net : NetInfo ρ) (out : Option (NetInfo ρ)) : Prop where
  start : (∃ old ∈ nets, old.portInfo.key = ifr.key ∧
      net = { old with portInfo := { old.portInfo with newPort := false } }) ∨
    (ifr.key ∉ keys nets ∧ net = snsdGetNew fresh count ifr)
  ends : OneEnds anyProtocol count group vlanInfo net out ret
  mem : ∀ x, x ∈ nets' ↔ x ∈ out ∨ (x ∈ nets ∧ x.portInfo.key ≠ ifr.key)
  nodup : (keys nets').Nodup

theorem TurnView.start_key {net : NetInfo ρ} {out : Option (NetInfo ρ)}
    (h : TurnView fresh anyProtocol count group vlanInfo ifr nets nets' ret net out) :
    net.portInfo.key = ifr.key := by
  rcases h.start with ⟨old, -, hkey, rfl⟩ | ⟨-, rfl⟩
  · exact hkey
  · exact getNew_key

theorem TurnView.out_key {net x : NetInfo ρ} {out : Option (NetInfo ρ)}
    (h : TurnView fresh anyProtocol count group vlanInfo ifr nets nets' ret net out)
    (hx : x ∈ out) : x.portInfo.key = ifr.key :=
  (h.ends.key hx).trans h.start_key

theorem Turn.view (h : Turn fresh anyProtocol count group vlanInfo ifr nets nets' ret)
    (hnodup : (keys nets).Nodup) :
    ∃ net out, TurnView fresh anyProtocol count group vlanInfo ifr nets nets' ret net out := by
  obtain ⟨pre, net, post, out, hstart, hends, rfl⟩ := h
  refine ⟨net, out, ?_⟩
  cases hstart with
  | @old pre old post split key first =>
    have hkeys : keys nets = keys pre ++ old.portInfo.key :: keys post := by
      rw [split]
      exact List.map_append
    have hout (x : NetInfo ρ) (hx : x ∈ out) : x.portInfo.key = old.portInfo.key := hends.key hx
    rw [hkeys] at hnodup
    have hne (x : NetInfo ρ) (hx : x ∈ pre ∨ x ∈ post) : x.portInfo.key ≠ ifr.key := by
      rw [← key]
      intro he
      rcases hx with hx | hx
      · exact first x hx (he.trans key)
      · exact (List.nodup_cons.mp (List.nodup_append.mp hnodup).2.1).1
          (he ▸ List.mem_map_of_mem hx)
    refine ⟨Or.inl ⟨old, by simp [split], key, rfl⟩, hends, ?_, ?_⟩
    · intro x
      rw [split]
      simp only [List.mem_append, List.mem_cons, Option.mem_toList]
      constructor
      · rintro (hx | hx | hx)
        · exact Or.inr ⟨Or.inl hx, hne x (Or.inl hx)⟩
        · exact Or.inl hx
        · exact Or.inr ⟨Or.inr (Or.inr hx), hne x (Or.inr hx)⟩
      · rintro (hx | ⟨hx | rfl | hx, hkey⟩)
        · exact Or.inr (Or.inl hx)
        · exact Or.inl hx
        · exact absurd key hkey
        · exact Or.inr (Or.inr hx)
    · cases out with
      | none =>
        have happend : keys (pre ++ (([] : List (NetInfo ρ)) ++ post)) = keys pre ++ keys post :=
          List.map_append
        rw [Option.toList_none, happend]
        exact List.Nodup.sublist
          ((List.Sublist.refl _).append (List.sublist_cons_self _ _)) hnodup
      | some x =>
        have happend : keys (pre ++ ([x] ++ post)) = keys pre ++ x.portInfo.key :: keys post :=
          List.map_append
        rw [Option.toList_some, happend, hout x rfl]
        exact hnodup
  | new absent =>
    have habsent : ifr.key ∉ keys nets := by
      intro hmem
      obtain ⟨x, hx, hkey⟩ := mem_keys.mp hmem
      exact absent x hx hkey
    refine ⟨Or.inr ⟨habsent, rfl⟩, hends, ?_, ?_⟩
    · intro x
      rw [List.append_nil, List.mem_append, Option.mem_toList, or_comm]
      exact or_congr_right ⟨fun hx => ⟨hx, absent x hx⟩, And.left⟩
    · cases out with
      | none => simpa using hnodup
      | some x =>
        have hkey : x.portInfo.key = ifr.key := (hends.key rfl).trans getNew_key
        have happend : keys (nets ++ ([x] ++ [])) = keys nets ++ [x.portInfo.key] :=
          List.map_append
        rw [Option.toList_some, happend, hkey, List.nodup_append]
        refine ⟨hnodup, List.nodup_singleton _, ?_⟩
        intro a ha b hb he
        rw [List.mem_singleton] at hb
        exact habsent (hb ▸ he ▸ ha)

end Keys

/-- A name has a VLAN in the text. -/
def HasVlan (vlanInfo name : Bytes) : Prop :=
  ∃ vlan pos, snsdFillVlan name vlanInfo = .ok (vlan, pos) ∧ vlan ≠ SNSD_INVALID_VLAN

section Collect
variable {ρ : Type} {fresh : ρ} {anyProtocol : Int32} {count : UInt32} {group : List Bytes}
  {vlanInfo : Bytes} {ifr : Ifreq} {done : List Ifreq} {nets₀ nets nets' : List (NetInfo ρ)}
  {ret : ℤ}

/-- The list while the interfaces of a snapshot are gone through. -/
structure Collected (count : UInt32) (vlanInfo : Bytes) (nets₀ : List (NetInfo ρ))
    (done : List Ifreq) (nets : List (NetInfo ρ)) : Prop where
  nodup : (keys nets).Nodup
  kept : ∀ k ∈ keys nets₀, k ∈ keys nets
  unbonded : ∀ net ∈ nets, net.portInfo.bonding.valid = false
  unseen : ∀ net ∈ nets, net.portInfo.key ∉ done.map Ifreq.key → net ∈ nets₀
  entered : ∀ net ∈ nets, net.portInfo.key ∈ done.map Ifreq.key →
    (net.portInfo.newPort = true ↔
      net.portInfo.key ∉ keys nets₀ ∧ (done.map Ifreq.key).count net.portInfo.key = 1)
  counted : ∀ net ∈ nets, net.portInfo.key ∈ done.map Ifreq.key →
    HasVlan vlanInfo net.portInfo.name → net.portInfo.count = count
  stale : ∀ net ∈ nets, net.portInfo.key ∈ done.map Ifreq.key →
    ¬ HasVlan vlanInfo net.portInfo.name →
      ∃ old ∈ nets₀, old.portInfo.count = net.portInfo.count
  listed : ∀ k ∈ done.map Ifreq.key, HasVlan vlanInfo k.1 → k ∈ keys nets

theorem Collected.start (hnodup : (keys nets₀).Nodup)
    (hunbonded : ∀ net ∈ nets₀, net.portInfo.bonding.valid = false) :
    Collected count vlanInfo nets₀ [] nets₀ where
  nodup := hnodup
  kept := fun _ hk => hk
  unbonded := hunbonded
  unseen := fun _ hnet _ => hnet
  entered := fun _ _ h => absurd h List.not_mem_nil
  counted := fun _ _ h => absurd h List.not_mem_nil
  stale := fun _ _ h => absurd h List.not_mem_nil
  listed := fun _ h => absurd h List.not_mem_nil

theorem VlanSet.hasVlan {p q : PortInfo} {vlan : Int16} (h : VlanSet vlanInfo p q vlan)
    (hvalid : vlan ≠ SNSD_INVALID_VLAN) : HasVlan vlanInfo p.name := by
  obtain ⟨pos, hfill⟩ := h.found
  exact ⟨vlan, pos, hfill, hvalid⟩

theorem not_hasVlan {name : Bytes} {pos : ℕ}
    (h : snsdFillVlan name vlanInfo = .ok (SNSD_INVALID_VLAN, pos)) : ¬ HasVlan vlanInfo name := by
  intro ⟨vlan, pos', hfill, hvalid⟩
  rw [h] at hfill
  cases hfill
  exact hvalid rfl

/-- A turn without an error ends with the count set for a name with a VLAN. -/
theorem OneEnds.hasVlan {net : NetInfo ρ} {out : Option (NetInfo ρ)}
    (h : OneEnds anyProtocol count group vlanInfo net out 0)
    (hvlan : HasVlan vlanInfo net.portInfo.name) :
    ∃ x, out = some x ∧ x.portInfo.count = count ∧
      x.portInfo.newPort = net.portInfo.newPort := by
  cases h with
  | fails keeps same vlan unbonded fail => exact absurd rfl fail
  | dropped new noVlan => exact absurd hvlan (not_hasVlan noVlan)
  | stale keeps same known noVlan =>
    obtain ⟨pos, hfill⟩ := noVlan.found
    exact absurd hvlan (not_hasVlan hfill)
  | current keeps set => exact ⟨_, rfl, set, keeps.newPort⟩

/-- And for one without a VLAN a known entry stays as it is counted. -/
theorem OneEnds.noVlan {net : NetInfo ρ} {out : Option (NetInfo ρ)}
    (h : OneEnds anyProtocol count group vlanInfo net out 0)
    (hvlan : ¬ HasVlan vlanInfo net.portInfo.name) :
    (out = none ∧ net.portInfo.newPort = true) ∨
      ∃ x, out = some x ∧ x.portInfo.count = net.portInfo.count ∧
        x.portInfo.newPort = false ∧ net.portInfo.newPort = false := by
  cases h with
  | fails keeps same vlan unbonded fail => exact absurd rfl fail
  | dropped new noVlan => exact Or.inl ⟨rfl, new⟩
  | stale keeps same known noVlan =>
    exact Or.inr ⟨_, rfl, same, keeps.newPort.trans known, known⟩
  | current keeps set any hasVlan valid => exact absurd (hasVlan.hasVlan valid) hvlan

theorem OneEnds.unbonded {net x : NetInfo ρ} {out : Option (NetInfo ρ)}
    (h : OneEnds anyProtocol count group vlanInfo net out ret)
    (hoff : OffBond group vlanInfo net.portInfo.name)
    (hv : net.portInfo.bonding.valid = false) (hx : x ∈ out) :
    x.portInfo.bonding.valid = false := by
  cases h with
  | dropped => cases hx
  | fails keeps same vlan unbonded =>
    cases hx
    exact (congrArg BondingInfo.valid (unbonded hoff hv)).trans hv
  | stale keeps same known noVlan unbonded =>
    cases hx
    exact (congrArg BondingInfo.valid (unbonded hoff hv)).trans hv
  | current keeps set any hasVlan valid unbonded =>
    cases hx
    exact (congrArg BondingInfo.valid (unbonded hoff hv)).trans hv

theorem TurnView.unbonded {net : NetInfo ρ} {out : Option (NetInfo ρ)}
    (h : TurnView fresh anyProtocol count group vlanInfo ifr nets nets' ret net out)
    (hoff : OffBond group vlanInfo (nameArray ifr.ifrName))
    (hun : ∀ net ∈ nets, net.portInfo.bonding.valid = false) :
    ∀ x ∈ nets', x.portInfo.bonding.valid = false := by
  intro x hx
  rcases (h.mem x).mp hx with hout | ⟨hold, -⟩
  · have hname : net.portInfo.name = nameArray ifr.ifrName := congrArg Prod.fst h.start_key
    refine h.ends.unbonded (hname ▸ hoff) ?_ hout
    rcases h.start with ⟨old, hold, -, rfl⟩ | ⟨-, rfl⟩
    · exact hun old hold
    · rfl
  · exact hun x hold

/-- What one turn does to the list so far. -/
theorem Collected.turn (h : Collected count vlanInfo nets₀ done nets)
    (hoff : OffBond group vlanInfo (nameArray ifr.ifrName))
    (hturn : Turn fresh anyProtocol count group vlanInfo ifr nets nets' 0) :
    Collected count vlanInfo nets₀ (done ++ [ifr]) nets' := by
  obtain ⟨net, out, hview⟩ := hturn.view h.nodup
  have hname : net.portInfo.name = ifr.key.1 := congrArg Prod.fst hview.start_key
  have hdone (k : Bytes × Bytes) :
      k ∈ (done ++ [ifr]).map Ifreq.key ↔ k ∈ done.map Ifreq.key ∨ k = ifr.key := by
    simp [eq_comm]
  -- an interface with a VLAN that was gone through has an entry, so a new one is the first
  have hfirst (habsent : ifr.key ∉ keys nets) (hvlan : HasVlan vlanInfo ifr.key.1) :
      ifr.key ∉ done.map Ifreq.key := fun hmem => habsent (h.listed _ hmem hvlan)
  refine ⟨hview.nodup, ?kept, hview.unbonded hoff h.unbonded, ?unseen, ?entered, ?counted,
    ?stale, ?listed⟩
  case kept =>
    intro k hk
    obtain ⟨x, hx, hkey⟩ := mem_keys.mp (h.kept k hk)
    by_cases hne : x.portInfo.key = ifr.key
    · rcases hview.start with ⟨old, hold, hkold, rfl⟩ | ⟨habsent, rfl⟩
      · by_cases hvlan : HasVlan vlanInfo ifr.key.1
        · obtain ⟨y, rfl, -, -⟩ := hview.ends.hasVlan (hname ▸ hvlan)
          exact mem_keys.mpr ⟨y, (hview.mem y).mpr (Or.inl rfl),
            (hview.out_key rfl).trans (hne.symm.trans hkey)⟩
        · rcases hview.ends.noVlan (hname ▸ hvlan) with ⟨-, hnew⟩ | ⟨y, rfl, -⟩
          · cases hnew
          · exact mem_keys.mpr ⟨y, (hview.mem y).mpr (Or.inl rfl),
              (hview.out_key rfl).trans (hne.symm.trans hkey)⟩
      · exact absurd (mem_keys.mpr ⟨x, hx, hne⟩) habsent
    · exact mem_keys.mpr ⟨x, (hview.mem x).mpr (Or.inr ⟨hx, hne⟩), hkey⟩
  case unseen =>
    intro x hx hnot
    rw [hdone, not_or] at hnot
    rcases (hview.mem x).mp hx with hout | ⟨hold, -⟩
    · exact absurd (hview.out_key hout) hnot.2
    · exact h.unseen x hold hnot.1
  case entered =>
    intro x hx hmem
    rw [hdone] at hmem
    have hcount : ((done ++ [ifr]).map Ifreq.key).count x.portInfo.key =
        (done.map Ifreq.key).count x.portInfo.key + if ifr.key = x.portInfo.key then 1 else 0 := by
      rw [List.map_append, List.count_append, List.map_singleton, List.count_singleton]
      simp
    rw [hcount]
    rcases (hview.mem x).mp hx with hout | ⟨hold, hne⟩
    · have hkey := hview.out_key hout
      have hflag : x.portInfo.newPort = net.portInfo.newPort := by
        by_cases hvlan : HasVlan vlanInfo ifr.key.1
        · obtain ⟨y, rfl, -, hnew⟩ := hview.ends.hasVlan (hname ▸ hvlan)
          cases hout
          exact hnew
        · rcases hview.ends.noVlan (hname ▸ hvlan) with ⟨rfl, -⟩ | ⟨y, rfl, -, hnew, hnew'⟩
          · cases hout
          · cases hout
            exact hnew.trans hnew'.symm
      rw [hflag, hkey, if_pos rfl]
      rcases hview.start with ⟨old, hold, hkold, rfl⟩ | ⟨habsent, rfl⟩
      · -- an old entry is in the old list, or the interface is listed again
        refine ⟨fun hf => absurd hf Bool.false_ne_true, fun ⟨hnot, hone⟩ => ?_⟩
        have hzero : (done.map Ifreq.key).count ifr.key = 0 := by omega
        have hunseen := h.unseen old hold (hkold ▸ List.count_eq_zero.mp hzero)
        exact absurd (mem_keys.mpr ⟨old, hunseen, hkold⟩) hnot
      · refine ⟨fun _ => ⟨fun hk => habsent (h.kept _ hk), ?_⟩, fun _ => rfl⟩
        by_cases hvlan : HasVlan vlanInfo ifr.key.1
        · rw [List.count_eq_zero.mpr (hfirst habsent hvlan)]
        · rcases hview.ends.noVlan (hname ▸ hvlan) with ⟨rfl, -⟩ | ⟨y, rfl, -, -, hnew⟩
          · cases hout
          · cases hnew
    · rw [if_neg (Ne.symm hne), Nat.add_zero]
      exact h.entered x hold (hmem.resolve_right hne)
  case counted =>
    intro x hx hmem hvlan
    rw [hdone] at hmem
    rcases (hview.mem x).mp hx with hout | ⟨hold, hne⟩
    · have hkey : x.portInfo.name = ifr.key.1 := congrArg Prod.fst (hview.out_key hout)
      obtain ⟨y, rfl, hset, -⟩ := hview.ends.hasVlan (hname ▸ hkey ▸ hvlan)
      cases hout
      exact hset
    · exact h.counted x hold (hmem.resolve_right hne) hvlan
  case stale =>
    intro x hx hmem hvlan
    rw [hdone] at hmem
    rcases (hview.mem x).mp hx with hout | ⟨hold, hne⟩
    · have hkey : x.portInfo.name = ifr.key.1 := congrArg Prod.fst (hview.out_key hout)
      rcases hview.ends.noVlan (hname ▸ hkey ▸ hvlan) with ⟨rfl, -⟩ | ⟨y, rfl, hsame, -, hknown⟩
      · cases hout
      · cases hout
        rw [hsame]
        rcases hview.start with ⟨old, hold, hkold, rfl⟩ | ⟨-, rfl⟩
        · by_cases hseen : old.portInfo.key ∈ done.map Ifreq.key
          · have hold_name : old.portInfo.name = ifr.key.1 := congrArg Prod.fst hkold
            exact h.stale old hold hseen (hold_name ▸ hkey ▸ hvlan)
          · exact ⟨old, h.unseen old hold hseen, rfl⟩
        · cases hknown
    · exact h.stale x hold (hmem.resolve_right hne) hvlan
  case listed =>
    intro k hk hvlan
    rw [hdone] at hk
    by_cases hne : k = ifr.key
    · obtain ⟨y, rfl, -, -⟩ := hview.ends.hasVlan (hname ▸ hne ▸ hvlan)
      exact mem_keys.mpr ⟨y, (hview.mem y).mpr (Or.inl rfl), (hview.out_key rfl).trans hne.symm⟩
    · obtain ⟨x, hx, hkey⟩ := mem_keys.mp (h.listed k (hk.resolve_right hne) hvlan)
      exact mem_keys.mpr ⟨x, (hview.mem x).mpr (Or.inr ⟨hx, hkey ▸ hne⟩), hkey⟩

end Collect

end NvmeSnsd.Mgt
