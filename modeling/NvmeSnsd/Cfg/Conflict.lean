import NvmeSnsd.Lib.RingWalk
import NvmeSnsd.Cfg.Parse

/-! The check for addresses that are configured twice, on the circular lists
that it walks. -/
namespace NvmeSnsd.Cfg
open Lib

def CfgInfos.hostText (e : CfgInfos) : Bytes := (e.str .hostTraddr).text

/-- The memory of `sw_info_list` and `dc_info_list`. -/
structure InfoLists (α : Type*) where
  links : Links α
  swHead : α
  dcHead : α
  /-- The string at the offset of `host_traddr`, whatever the node is part of. -/
  hostTraddr : α → Bytes

namespace InfoLists
variable {α : Type*}

def head (m : InfoLists α) : SnsdMode → α
  | .sw => m.swHead
  | .dc => m.dcHead

section Check
variable [DecidableEq α]

/-- The same lists with other bytes behind the two heads. -/
def behind (m : InfoLists α) (texts : SnsdMode → Bytes) : InfoLists α :=
  { m with
    hostTraddr :=
      Function.update (Function.update m.hostTraddr m.swHead (texts .sw)) m.dcHead (texts .dc) }

/-- `snsd_check_single`; `fuel` bounds each of its two walks. -/
def snsdCheckSingle (m : InfoLists α) (anyflag : SnsdAny) (fuel : ℕ) (head : α)
    (mode : SnsdMode) : Option Bool :=
  m.links.forEach
    (fun swItem =>
      if anyflag = .yes ∧ mode = .sw ∧ m.hostTraddr swItem ≠ SNSD_SW_ANY then some false
      else
        m.links.forEach (fun curItem => some (m.hostTraddr swItem != m.hostTraddr curItem))
          swItem fuel (m.links.next swItem))
    head fuel (m.links.next head)

/-- `snsd_check_both` -/
def snsdCheckBoth (m : InfoLists α) (fuel : ℕ) : Option Bool :=
  m.links.forEach
    (fun swItem =>
      m.links.forEach (fun dcItem => some (m.hostTraddr swItem != m.hostTraddr dcItem))
        m.dcHead fuel (m.links.next m.dcHead))
    m.swHead fuel (m.links.next m.swHead)

/-- `snsd_check_conflict` -/
def snsdCheckConflict (m : InfoLists α) (anyflag : SnsdAny) (fuel : ℕ) : Option Bool :=
  match m.snsdCheckSingle anyflag fuel m.swHead .sw with
  | some true =>
    match m.snsdCheckSingle anyflag fuel m.dcHead .dc with
    | some true => m.snsdCheckBoth fuel
    | r => r
  | r => r

end Check

/-- The two lists hold the entries of `s`, at the nodes `sws` and `dcs`. -/
structure Holds (m : InfoLists α) (s : CfgState) (sws dcs : List α) : Prop where
  swRing : m.links.Ring m.swHead sws
  dcRing : m.links.Ring m.dcHead dcs
  disjoint : List.Disjoint (m.swHead :: sws) (m.dcHead :: dcs)
  swTexts : sws.map m.hostTraddr = s.swInfoList.map CfgInfos.hostText
  dcTexts : dcs.map m.hostTraddr = s.dcInfoList.map CfgInfos.hostText

end InfoLists

/-- What the check is for: no address is configured twice, and none beside any. -/
def HostsApart (s : CfgState) : Prop :=
  ((s.swInfoList ++ s.dcInfoList).map CfgInfos.hostText).Nodup ∧
    (s.anyflag = .yes → ∀ e ∈ s.swInfoList, e.hostText = SNSD_SW_ANY)

/-- What one list must meet in the code's check; `head` is read at the list head. -/
structure SingleApart (anyflag : SnsdAny) (mode : SnsdMode) (head : Bytes) (texts : List Bytes) :
    Prop where
  any : anyflag = .yes → mode = .sw → ∀ t ∈ texts, t = SNSD_SW_ANY
  head : ∀ t ∈ texts, t ≠ head
  nodup : texts.Nodup

/-- No entry has the address that is read at the head of its own list. -/
structure BehindApart (behind : SnsdMode → Bytes) (s : CfgState) : Prop where
  sw : ∀ e ∈ s.swInfoList, e.hostText ≠ behind .sw
  dc : ∀ e ∈ s.dcInfoList, e.hostText ≠ behind .dc

theorem apart_parts (behind : SnsdMode → Bytes) {s : CfgState} :
    SingleApart s.anyflag .sw (behind .sw) (s.swInfoList.map CfgInfos.hostText) ∧
        SingleApart s.anyflag .dc (behind .dc) (s.dcInfoList.map CfgInfos.hostText) ∧
        List.Disjoint (s.swInfoList.map CfgInfos.hostText) (s.dcInfoList.map CfgInfos.hostText) ↔
      HostsApart s ∧ BehindApart behind s := by
  rw [HostsApart, List.map_append, List.nodup_append']
  constructor
  · intro hall
    obtain ⟨hsw, hdc, hdis⟩ := hall
    refine ⟨⟨⟨hsw.nodup, hdc.nodup, hdis⟩, ?_⟩, ?_, ?_⟩
    · exact fun hany e he => hsw.any hany rfl _ (List.mem_map_of_mem he)
    · exact fun e he => hsw.head _ (List.mem_map_of_mem he)
    · exact fun e he => hdc.head _ (List.mem_map_of_mem he)
  · intro hall
    obtain ⟨⟨⟨hnsw, hndc, hdis⟩, hany⟩, hbehind⟩ := hall
    refine ⟨⟨?_, ?_, hnsw⟩, ⟨?_, ?_, hndc⟩, hdis⟩
    · exact fun ha _ => List.forall_mem_map.mpr (hany ha)
    · exact List.forall_mem_map.mpr hbehind.sw
    · intro _ hmode
      cases hmode
    · exact List.forall_mem_map.mpr hbehind.dc

section Ring
variable {α : Type*} [DecidableEq α] {m : InfoLists α} {anyflag : SnsdAny} {fuel : ℕ}

open Classical in
/-- The pass of the outer walk for one entry: its inner walk meets all other
entries and the list head. -/
theorem single_body {head x : α} {xs : List α} (h : m.links.Ring head xs) (hx : x ∈ xs)
    (hf : xs.length < fuel) :
    m.links.forEach (fun cur => some (m.hostTraddr x != m.hostTraddr cur)) x fuel
        (m.links.next x) =
      some (decide (m.hostTraddr x ≠ m.hostTraddr head ∧
        ∀ y ∈ xs, y ≠ x → m.hostTraddr x ≠ m.hostTraddr y)) := by
  obtain ⟨A, B, rfl⟩ := List.append_of_mem hx
  rw [h.forEach_elem (fun cur => m.hostTraddr x != m.hostTraddr cur) (fun _ _ => rfl) hf]
  have hnd := (List.nodup_cons.mp h.nodup).2
  have hxA : x ∉ A := fun hm => (List.nodup_append.mp hnd).2.2 x hm x List.mem_cons_self rfl
  have hxB : x ∉ B := (List.nodup_cons.mp (List.nodup_append.mp hnd).2.1).1
  congr 1
  rw [Bool.eq_iff_iff, List.all_eq_true, decide_eq_true_iff]
  simp only [bne_iff_ne, List.mem_append, List.mem_cons]
  constructor
  · intro hall
    refine ⟨hall head (Or.inr (Or.inl rfl)), ?_⟩
    intro y hy hyx
    apply hall y
    tauto
  · rintro ⟨hhead, hall⟩ y (hy | rfl | hy)
    · exact hall y (Or.inr (Or.inr hy)) fun he => hxB (he ▸ hy)
    · exact hhead
    · exact hall y (Or.inl hy) fun he => hxA (he ▸ hy)

theorem single_ring {head : α} {xs : List α} (h : m.links.Ring head xs)
    (hf : xs.length < fuel) (anyflag : SnsdAny) (mode : SnsdMode) :
    ∃ b, m.snsdCheckSingle anyflag fuel head mode = some b ∧
      (b = true ↔ SingleApart anyflag mode (m.hostTraddr head) (xs.map m.hostTraddr)) := by
  classical
  let ok : α → Bool := fun x =>
    decide (¬ (anyflag = .yes ∧ mode = .sw ∧ m.hostTraddr x ≠ SNSD_SW_ANY) ∧
      m.hostTraddr x ≠ m.hostTraddr head ∧
      ∀ y ∈ xs, y ≠ x → m.hostTraddr x ≠ m.hostTraddr y)
  have hwalk : m.snsdCheckSingle anyflag fuel head mode = some (xs.all ok) := by
    apply h.forEach_head ok _ hf
    intro x hx
    by_cases hany : anyflag = .yes ∧ mode = .sw ∧ m.hostTraddr x ≠ SNSD_SW_ANY
    · rw [if_pos hany]
      exact congrArg some (decide_eq_false fun hall => hall.1 hany).symm
    · rw [if_neg hany, single_body h hx hf]
      simp only [ok, hany, not_false_eq_true, true_and]
  refine ⟨_, hwalk, ?_⟩
  have hnd := (List.nodup_cons.mp h.nodup).2
  simp only [ok, List.all_eq_true, decide_eq_true_iff]
  constructor
  · intro hall
    refine ⟨?_, ?_, ?_⟩
    · intro hany hmode t ht
      obtain ⟨x, hx, rfl⟩ := List.mem_map.mp ht
      by_contra hne
      exact (hall x hx).1 ⟨hany, hmode, hne⟩
    · intro t ht
      obtain ⟨x, hx, rfl⟩ := List.mem_map.mp ht
      exact (hall x hx).2.1
    · rw [List.nodup_map_iff_inj_on hnd]
      intro x hx y hy hxy
      by_contra hne
      exact (hall x hx).2.2 y hy (Ne.symm hne) hxy
  · intro hs x hx
    have ht : m.hostTraddr x ∈ xs.map m.hostTraddr := List.mem_map_of_mem hx
    refine ⟨fun hany => hany.2.2 (hs.any hany.1 hany.2.1 _ ht), hs.head _ ht, ?_⟩
    intro y hy hyx hxy
    exact hyx ((List.nodup_map_iff_inj_on hnd).mp hs.nodup y hy x hx hxy.symm)

theorem both_ring {s : CfgState} {sws dcs : List α} (h : m.Holds s sws dcs)
    (hsw : sws.length < fuel) (hdc : dcs.length < fuel) :
    ∃ b, m.snsdCheckBoth fuel = some b ∧
      (b = true ↔ List.Disjoint (s.swInfoList.map CfgInfos.hostText)
        (s.dcInfoList.map CfgInfos.hostText)) := by
  have hwalk : m.snsdCheckBoth fuel =
      some (sws.all fun x => dcs.all fun y => m.hostTraddr x != m.hostTraddr y) := by
    apply h.swRing.forEach_head (fun x => dcs.all fun y => m.hostTraddr x != m.hostTraddr y) _ hsw
    intro x _
    exact h.dcRing.forEach_head (fun y => m.hostTraddr x != m.hostTraddr y) (fun _ _ => rfl) hdc
  refine ⟨_, hwalk, ?_⟩
  rw [← h.swTexts, ← h.dcTexts]
  simp only [List.all_eq_true, bne_iff_ne]
  constructor
  · intro hall t htx hty
    obtain ⟨x, hx, rfl⟩ := List.mem_map.mp htx
    obtain ⟨y, hy, hyx⟩ := List.mem_map.mp hty
    exact hall x hx y hy hyx.symm
  · intro hdis x hx y hy hxy
    exact hdis (List.mem_map_of_mem hx) (hxy ▸ List.mem_map_of_mem hy)

/-- Which lists the check accepts, with what stands behind the two heads. -/
theorem conflict_ring {s : CfgState} {sws dcs : List α} (h : m.Holds s sws dcs)
    (hsw : sws.length < fuel) (hdc : dcs.length < fuel) :
    ∃ b, m.snsdCheckConflict s.anyflag fuel = some b ∧
      (b = true ↔ HostsApart s ∧ BehindApart (fun mode => m.hostTraddr (m.head mode)) s) := by
  obtain ⟨b₁, h₁, hb₁⟩ := single_ring h.swRing hsw s.anyflag .sw
  obtain ⟨b₂, h₂, hb₂⟩ := single_ring h.dcRing hdc s.anyflag .dc
  obtain ⟨b₃, h₃, hb₃⟩ := both_ring h hsw hdc
  rw [h.swTexts] at hb₁
  rw [h.dcTexts] at hb₂
  refine ⟨b₁ && (b₂ && b₃), ?_, ?_⟩
  · unfold InfoLists.snsdCheckConflict
    rw [h₁, h₂, h₃]
    cases b₁ <;> cases b₂ <;> rfl
  · rw [Bool.and_eq_true, Bool.and_eq_true, hb₁, hb₂, hb₃]
    exact apart_parts (fun mode => m.hostTraddr (m.head mode))

end Ring

section Entries
variable {s : CfgState}

theorem checkSingle_apart {head : Bytes} {list : List CfgInfos} {mode : SnsdMode} :
    snsdCheckSingle s head list mode = true ↔
      SingleApart s.anyflag mode head (list.map CfgInfos.hostText) := by
  unfold snsdCheckSingle
  rw [List.all_eq_true]
  simp only [Bool.and_eq_true, Bool.not_eq_true', Bool.or_eq_false_iff, Bool.and_eq_false_iff,
    beq_eq_false_iff_ne, bne_eq_false_iff_eq, List.any_eq_false, beq_iff_eq]
  constructor
  · intro hall
    refine ⟨?_, ?_, ?_⟩
    · intro hany hmode t ht
      obtain ⟨e, he, rfl⟩ := List.mem_map.mp ht
      obtain ⟨i, hi, rfl⟩ := List.getElem_of_mem he
      have := (hall (list[i], i) (List.mem_zipIdx_iff_getElem?.mpr (List.getElem?_eq_getElem hi))).1
      rcases this with (hne | hne) | heq
      · exact absurd hany hne
      · exact absurd hmode hne
      · exact heq
    · intro t ht
      obtain ⟨e, he, rfl⟩ := List.mem_map.mp ht
      obtain ⟨i, hi, rfl⟩ := List.getElem_of_mem he
      have := (hall (list[i], i)
        (List.mem_zipIdx_iff_getElem?.mpr (List.getElem?_eq_getElem hi))).2.1
      exact this.symm
    · rw [List.nodup_iff_pairwise_ne, List.pairwise_iff_getElem]
      intro i j hi hj hij
      rw [List.length_map] at hi hj
      rw [List.getElem_map, List.getElem_map]
      have := (hall (list[i], i)
        (List.mem_zipIdx_iff_getElem?.mpr (List.getElem?_eq_getElem hi))).2.2 list[j]
        (List.mem_eraseIdx_iff_getElem.mpr ⟨j, hj, by omega, rfl⟩)
      exact Ne.symm this
  · rintro hs ⟨e, i⟩ he
    have hget : list[i]? = some e := List.mem_zipIdx_iff_getElem?.mp he
    obtain ⟨hi, rfl⟩ := List.getElem?_eq_some_iff.mp hget
    have ht : (list[i]).hostText ∈ list.map CfgInfos.hostText :=
      List.mem_map_of_mem (List.getElem_mem hi)
    refine ⟨?_, (hs.head _ ht).symm, ?_⟩
    · by_cases hany : s.anyflag = .yes
      · by_cases hmode : mode = .sw
        · exact Or.inr (hs.any hany hmode _ ht)
        · exact Or.inl (Or.inr hmode)
      · exact Or.inl (Or.inl hany)
    · intro e he hee
      obtain ⟨j, hj, hji, rfl⟩ := List.mem_eraseIdx_iff_getElem.mp he
      have hinj := List.nodup_iff_injective_getElem.mp hs.nodup
      have hij := @hinj ⟨j, by simpa using hj⟩ ⟨i, by simpa using hi⟩
        (by simpa only [List.getElem_map] using! hee)
      exact hji (congrArg Fin.val hij)

theorem checkBoth_apart : snsdCheckBoth s = true ↔
    List.Disjoint (s.swInfoList.map CfgInfos.hostText) (s.dcInfoList.map CfgInfos.hostText) := by
  unfold snsdCheckBoth
  simp only [List.all_eq_true, bne_iff_ne]
  constructor
  · intro hall t htx hty
    obtain ⟨x, hx, rfl⟩ := List.mem_map.mp htx
    obtain ⟨y, hy, hyx⟩ := List.mem_map.mp hty
    exact hall x hx y hy hyx.symm
  · intro hdis x hx y hy hxy
    have hyx : x.hostText ∈ s.dcInfoList.map CfgInfos.hostText := by
      rw [show x.hostText = y.hostText from hxy]
      exact List.mem_map_of_mem hy
    exact hdis (List.mem_map_of_mem hx) hyx

theorem checkConflict_apart (behind : SnsdMode → Bytes) :
    snsdCheckConflict (fun _ => behind) s = true ↔ HostsApart s ∧ BehindApart behind s := by
  unfold snsdCheckConflict
  rw [Bool.and_eq_true, Bool.and_eq_true, checkSingle_apart, checkSingle_apart, checkBoth_apart,
    and_assoc]
  exact apart_parts behind

/-- Where a check of `snsd_cfg_init` passes. -/
theorem check_passed {c : Prop} [Decidable c] {t : CfgState} {k : Except Fault (CfgState × ℤ)}
    (h : (if c then pure (t, - EPERM) else k) = .ok (s, 0)) : ¬ c ∧ k = .ok (s, 0) := by
  by_cases hc : c
  · rw [if_pos hc] at h
    have hneg : -EPERM = 0 := congrArg Prod.snd (Except.ok.inj h)
    exact absurd hneg (by decide)
  · rw [if_neg hc] at h
    exact ⟨hc, h⟩

/-- A configuration that is accepted has no conflict. -/
theorem cfgInit_apart {o : Outside} {f : HostnqnFile} {head : CfgState → SnsdMode → Bytes}
    {file : Bytes} {s₀ : CfgState} (h : snsdCfgInit o f head file s₀ = .ok (s, 0)) :
    HostsApart s := by
  unfold snsdCfgInit at h
  obtain ⟨⟨s₁, r₁⟩, -, h⟩ := bind_eq_ok.mp h
  obtain ⟨⟨s₂, r₂⟩, -, h⟩ := bind_eq_ok.mp (check_passed h).2
  obtain ⟨⟨s₃, r₃⟩, -, h⟩ := bind_eq_ok.mp (check_passed h).2
  obtain ⟨⟨s₄, r₄⟩, -, h⟩ := bind_eq_ok.mp (check_passed h).2
  obtain ⟨hcheck, hlast⟩ := check_passed (check_passed h).2
  obtain rfl : s₄ = s := congrArg Prod.fst (Except.ok.inj hlast)
  rw [Bool.not_eq_true', Bool.not_eq_false] at hcheck
  exact ((checkConflict_apart (head s₄)).mp hcheck).1

end Entries

section Main
variable {α : Type*} [DecidableEq α] {m : InfoLists α} {s : CfgState} {sws dcs : List α} {fuel : ℕ}

/-- On the circular lists the check gives what it gives on the entries alone,
with the bytes behind each head read as one address more. -/
theorem conflict_refines (h : m.Holds s sws dcs) (hsw : sws.length < fuel)
    (hdc : dcs.length < fuel) :
    m.snsdCheckConflict s.anyflag fuel =
      some (snsdCheckConflict (fun _ mode => m.hostTraddr (m.head mode)) s) := by
  obtain ⟨b, hb, hiff⟩ := conflict_ring h hsw hdc
  rw [← checkConflict_apart] at hiff
  rw [hb, Bool.eq_iff_iff.mpr hiff]

theorem Holds_behind (h : m.Holds s sws dcs) (texts : SnsdMode → Bytes) :
    (m.behind texts).Holds s sws dcs := by
  have hkeep : ∀ x, x ≠ m.swHead → x ≠ m.dcHead →
      (m.behind texts).hostTraddr x = m.hostTraddr x := by
    intro x hsw hdc
    exact (Function.update_of_ne hdc ..).trans (Function.update_of_ne hsw ..)
  refine ⟨h.swRing, h.dcRing, h.disjoint, ?_, ?_⟩
  · rw [← h.swTexts]
    apply List.map_congr_left
    intro x hx
    apply hkeep x
    · exact fun he => (List.nodup_cons.mp h.swRing.nodup).1 (he ▸ hx)
    · exact fun he => h.disjoint (List.mem_cons_of_mem _ (he ▸ hx)) List.mem_cons_self
  · rw [← h.dcTexts]
    apply List.map_congr_left
    intro x hx
    apply hkeep x
    · exact fun he => h.disjoint List.mem_cons_self (List.mem_cons_of_mem _ (he ▸ hx))
    · exact fun he => (List.nodup_cons.mp h.dcRing.nodup).1 (he ▸ hx)

theorem behind_head (h : m.Holds s sws dcs) (texts : SnsdMode → Bytes) :
    (fun mode => (m.behind texts).hostTraddr ((m.behind texts).head mode)) = texts := by
  have hne : m.swHead ≠ m.dcHead := fun he =>
    h.disjoint List.mem_cons_self (he ▸ List.mem_cons_self)
  funext mode
  cases mode with
  | sw => exact (Function.update_of_ne hne ..).trans (Function.update_self ..)
  | dc => exact Function.update_self ..

theorem conflict_behind (h : m.Holds s sws dcs) (hsw : sws.length < fuel)
    (hdc : dcs.length < fuel) (texts : SnsdMode → Bytes) :
    ∃ b, (m.behind texts).snsdCheckConflict s.anyflag fuel = some b ∧
      (b = true ↔ HostsApart s ∧ BehindApart texts s) := by
  have hring := conflict_ring (Holds_behind h texts) hsw hdc
  rw [behind_head h texts] at hring
  exact hring

theorem exists_other_text (s : CfgState) : ∃ t : Bytes, BehindApart (fun _ => t) s := by
  obtain ⟨t, -, ht⟩ := Set.Infinite.exists_notMem_finset (Set.infinite_univ (α := Bytes))
    ((s.swInfoList ++ s.dcInfoList).map CfgInfos.hostText).toFinset
  rw [List.mem_toFinset, List.map_append, List.mem_append, not_or] at ht
  refine ⟨t, ?_, ?_⟩
  · exact fun e he hte => ht.1 (hte ▸ List.mem_map_of_mem he)
  · exact fun e he hte => ht.2 (hte ▸ List.mem_map_of_mem he)

/-- Only lists without entries are safe whatever stands behind the heads. -/
theorem behindApart_all_iff : (∀ texts, BehindApart texts s) ↔
    s.swInfoList = [] ∧ s.dcInfoList = [] := by
  constructor
  · intro hall
    constructor
    · apply List.eq_nil_iff_forall_not_mem.mpr
      exact fun e he => (hall fun _ => e.hostText).sw e he rfl
    · apply List.eq_nil_iff_forall_not_mem.mpr
      exact fun e he => (hall fun _ => e.hostText).dc e he rfl
  · intro hnil texts
    constructor
    · rw [hnil.1]
      exact fun e he => absurd he List.not_mem_nil
    · rw [hnil.2]
      exact fun e he => absurd he List.not_mem_nil

/-- The check tells the lists that are free of conflicts from the others exactly
where no entry looks like the head of its list. Its answer depends on nothing
but the entries only where these conflict or there are none. -/
theorem check_conflict_iff (h : m.Holds s sws dcs) (hsw : sws.length < fuel)
    (hdc : dcs.length < fuel) :
    ((∃ b, m.snsdCheckConflict s.anyflag fuel = some b ∧ (b = true ↔ HostsApart s)) ↔
        (HostsApart s → BehindApart (fun mode => m.hostTraddr (m.head mode)) s)) ∧
      ((∀ texts texts', (m.behind texts).snsdCheckConflict s.anyflag fuel =
          (m.behind texts').snsdCheckConflict s.anyflag fuel) ↔
        (HostsApart s → s.swInfoList = [] ∧ s.dcInfoList = [])) := by
  refine ⟨?_, ?_⟩
  · obtain ⟨b, hb, hiff⟩ := conflict_ring h hsw hdc
    constructor
    · intro hex hapart
      obtain ⟨b', hb', hiff'⟩ := hex
      obtain rfl : b = b' := Option.some.inj (hb.symm.trans hb')
      exact (hiff.mp (hiff'.mpr hapart)).2
    · intro hcond
      exact ⟨b, hb, hiff.trans ⟨And.left, fun hapart => ⟨hapart, hcond hapart⟩⟩⟩
  · rw [← behindApart_all_iff]
    constructor
    · intro hsame hapart texts
      -- one content of the memory makes the check succeed, so every other one does
      obtain ⟨t, ht⟩ := exists_other_text s
      obtain ⟨b, hb, hiff⟩ := conflict_behind h hsw hdc fun _ => t
      obtain ⟨b', hb', hiff'⟩ := conflict_behind h hsw hdc texts
      have hbb : b = b' := by
        apply Option.some.inj
        rw [← hb, ← hb']
        exact hsame (fun _ => t) texts
      exact (hiff'.mp (hbb ▸ hiff.mpr ⟨hapart, ht⟩)).2
    · intro hall texts texts'
      obtain ⟨b, hb, hiff⟩ := conflict_behind h hsw hdc texts
      obtain ⟨b', hb', hiff'⟩ := conflict_behind h hsw hdc texts'
      rw [hb, hb', Option.some.injEq, Bool.eq_iff_iff, hiff, hiff']
      exact ⟨fun ha => ⟨ha.1, hall ha.1 texts'⟩, fun ha => ⟨ha.1, hall ha.1 texts⟩⟩

end Main

/-- One switch entry, and no flag. -/
def oneEntry : CfgState :=
  { clearState with
    swInfoList := [{ CfgFields.zero.setStr .hostTraddr (CStr.clip (by decide) (ascii "10.0.0.1"))
      with mode := .sw }] }

/-- The entry is node 2, and the bytes behind both heads read as its address. -/
def oneEntryLists : InfoLists ℕ where
  links := (((Links.mk id id).initHead 0).initHead 1).addTail 2 0
  swHead := 0
  dcHead := 1
  hostTraddr _ := ascii "10.0.0.1"

theorem oneEntryLists_holds : oneEntryLists.Holds oneEntry [2] [] := by
  have hsw : (((Links.mk id id).initHead 0).initHead 1).Ring 0 [] :=
    (Links.ring_initHead _ 0).initHead_frame (by decide)
  have hdc : (((Links.mk id id).initHead 0).initHead 1).Ring 1 [] := Links.ring_initHead _ 1
  refine ⟨?_, ?_, List.disjoint_left.mpr (by decide), by decide, rfl⟩
  · exact hsw.addTail (by decide)
  · exact hdc.addTail_frame hsw (by decide) (List.disjoint_left.mpr (by decide))

/-- The entry is refused for its own list head, and accepted with other bytes
behind it. -/
theorem head_taken_for_entry :
    oneEntryLists.Holds oneEntry [2] [] ∧ HostsApart oneEntry ∧
      oneEntryLists.snsdCheckConflict oneEntry.anyflag 2 = some false ∧
      (oneEntryLists.behind fun _ => []).snsdCheckConflict oneEntry.anyflag 2 = some true := by
  exact ⟨oneEntryLists_holds, ⟨by decide, by decide⟩, by decide, by decide⟩

theorem check_conflict_sample :
    ((∃ b, oneEntryLists.snsdCheckConflict oneEntry.anyflag 2 = some b ∧
          (b = true ↔ HostsApart oneEntry)) ↔
        (HostsApart oneEntry →
          BehindApart (fun mode => oneEntryLists.hostTraddr (oneEntryLists.head mode)) oneEntry)) ∧
      ((∀ texts texts', (oneEntryLists.behind texts).snsdCheckConflict oneEntry.anyflag 2 =
          (oneEntryLists.behind texts').snsdCheckConflict oneEntry.anyflag 2) ↔
        (HostsApart oneEntry → oneEntry.swInfoList = [] ∧ oneEntry.dcInfoList = [])) :=
  check_conflict_iff oneEntryLists_holds (by decide) (by decide)

end NvmeSnsd.Cfg
