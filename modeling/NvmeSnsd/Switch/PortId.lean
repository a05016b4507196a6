import NvmeSnsd.Lib.Run
import NvmeSnsd.Switch.Held
import NvmeSnsd.Reg.LldpSpec

/-! Runs of requests and returns, and the identifiers that the ports advertise. -/
namespace NvmeSnsd.Switch
open Lib Cfg Mgt Reg

/-- One that holds a place: its interface, by name and by the index that the kernel has
for it, and the index it was given, 0 if it asked for none. -/
structure Holder where
  slot : Fin MAX_PHY_PORT
  index : ℕ
  ifindex : ℕ
  name : Bytes
  deriving DecidableEq

def Holder.hold (h : Holder) : Hold := (h.slot, h.index)

/-- What follows the prefix in the identifier of its port. -/
def Holder.portId (h : Holder) : Bytes := portIdText h.name h.index

structure HoldState where
  table : FdTable
  holders : List Holder

inductive HoldLabel
  | get (clock : Fin MAX_PHY_PORT → ℕ) (name : Bytes) (ifindex : ℕ) (withIndex : Bool)
  /-- The `k`-th holder returns its place. -/
  | put (k now : ℕ)
  /-- A socket is stored at the place of the `k`-th holder. -/
  | sock (k : ℕ) (fd : ℤ)

def holdGet (s : HoldState) (clock : Fin MAX_PHY_PORT → ℕ) (name : Bytes) (ifindex : ℕ)
    (withIndex : Bool) : HoldState :=
  match switchGetFdInfo clock s.table ifindex withIndex with
  | (table, some (slot, index)) => ⟨table, ⟨slot, index, ifindex, name⟩ :: s.holders⟩
  | (table, none) => ⟨table, s.holders⟩

def holdStep (s : HoldState) : HoldLabel → Option HoldState
  | .get clock name ifindex withIndex => some (holdGet s clock name ifindex withIndex)
  | .put k now => s.holders[k]?.map fun h =>
    ⟨switchPutFdInfo now s.table h.slot h.index, s.holders.eraseIdx k⟩
  | .sock k fd => s.holders[k]?.map fun h =>
    ⟨setAt s.table h.slot { s.table.get h.slot with fd := fd }, s.holders⟩

def HoldState.start : HoldState := ⟨switchPortInit, []⟩

def HoldState.holds (s : HoldState) : Multiset Hold := ↑(s.holders.map Holder.hold)

structure HoldInv (s : HoldState) : Prop where
  held : Held s.table s.holds
  ifindex : ∀ h ∈ s.holders, (s.table.get h.slot).ifindex = h.ifindex

section Steps
variable {s s' : HoldState} {l : HoldLabel} {h : Holder}

theorem mem_holds (hh : h ∈ s.holders) : h.hold ∈ s.holds :=
  Multiset.mem_coe.mpr (List.mem_map_of_mem hh)

/-- A holder beside those that stay when it returns. -/
theorem holds_eraseIdx {k : ℕ} (hk : s.holders[k]? = some h) :
    s.holds = h.hold ::ₘ ↑((s.holders.eraseIdx k).map Holder.hold) := by
  obtain ⟨hlt, hget⟩ := List.getElem?_eq_some_iff.mp hk
  have hperm := (List.getElem_cons_eraseIdx_perm hlt).map Holder.hold
  rw [hget, List.map_cons] at hperm
  rw [HoldState.holds, Multiset.cons_coe]
  exact Multiset.coe_eq_coe.mpr hperm.symm

theorem HoldInv.start : HoldInv HoldState.start where
  held := Held.init
  ifindex := by
    intro h hh
    exact absurd hh List.not_mem_nil

theorem HoldInv.get (inv : HoldInv s) (clock : Fin MAX_PHY_PORT → ℕ) (name : Bytes)
    (ifindex : ℕ) (withIndex : Bool) : HoldInv (holdGet s clock name ifindex withIndex) := by
  unfold holdGet
  cases hg : switchGetFdInfo clock s.table ifindex withIndex with
  | mk table r =>
    cases r with
    | none =>
      have hsame := (inv.held.get_none hg).1
      subst hsame
      exact inv
    | some x =>
      have hgot := inv.held.get (Int.natCast_nonneg ifindex) hg
      refine ⟨hgot.held, fun y hy => ?_⟩
      rcases List.mem_cons.mp hy with rfl | hy
      · exact hgot.ifindex
      · exact (hgot.kept _ (mem_holds hy)).trans (inv.ifindex y hy)

theorem HoldInv.step (inv : HoldInv s) (hs : holdStep s l = some s') : HoldInv s' := by
  cases l with
  | get clock name ifindex withIndex =>
    obtain rfl := Option.some.inj hs
    exact inv.get clock name ifindex withIndex
  | put k now =>
    obtain ⟨h, hk, rfl⟩ := Option.map_eq_some_iff.mp hs
    have held := inv.held
    rw [holds_eraseIdx hk] at held
    refine ⟨held.put, fun y hy => ?_⟩
    exact (putFdInfo_ifindex y.slot).trans (inv.ifindex y (List.mem_of_mem_eraseIdx hy))
  | sock k fd =>
    obtain ⟨h, hk, rfl⟩ := Option.map_eq_some_iff.mp hs
    have hmem : h ∈ s.holders := List.mem_of_getElem? hk
    refine ⟨inv.held.setFd ⟨h.hold, mem_holds hmem, rfl⟩ fd, fun y hy => ?_⟩
    rw [← inv.ifindex y hy]
    by_cases hi : y.slot = h.slot
    · rw [hi, get_setAt_self]
    · rw [get_setAt_ne _ hi]

end Steps

/-! What the identifiers tell apart. -/

theorem digit_injective {a b : ℕ} (h : digit a = digit b) : a%10 = b%10 := by
  have hn := congrArg UInt8.toNat h
  rw [digit, digit, UInt8.toNat_ofNat', UInt8.toNat_ofNat'] at hn
  omega

/-- Names are compared up to their terminators. -/
theorem portIdText_injective {n n' : Bytes} {i i' : ℕ} (hi : i < 100) (hi' : i' < 100)
    (h : portIdText n i = portIdText n' i') :
    n.takeWhile (· != 0) = n'.takeWhile (· != 0) ∧ i = i' := by
  obtain ⟨hname, hdigits⟩ := List.append_inj' h rfl
  simp only [List.cons.injEq, and_true, true_and] at hdigits
  have htens := digit_injective hdigits.1
  have hones := digit_injective hdigits.2
  exact ⟨hname, by omega⟩

/-- What holds of a state that runs reach. -/
structure Apart (s : HoldState) : Prop where
  /-- One held place for an interface. -/
  places : ∀ x ∈ s.holders, ∀ y ∈ s.holders, 0 ≤ (s.table.get x.slot).ifindex →
    (s.table.get x.slot).ifindex = (s.table.get y.slot).ifindex → x.slot = y.slot
  /-- One holder for an index on an interface. -/
  indices : s.holders.Pairwise fun x y =>
    x.ifindex = y.ifindex → x.index = y.index → x.index = 0
  range : ∀ x ∈ s.holders, x.index ≤ 64
  /-- Why a request fails, and that it then changes nothing. -/
  failed : ∀ clock (ifindex : ℕ) withIndex,
    (switchGetFdInfo clock s.table ifindex withIndex).2 = none →
      (switchGetFdInfo clock s.table ifindex withIndex).1 = s.table ∧
      ((withIndex = true ∧ ∀ k, 1 ≤ k → k ≤ 64 →
          ∃ h ∈ s.holders, h.ifindex = ifindex ∧ h.index = k) ∨
        ∀ i, isFree (clock i) (s.table.get i) = false)
  /-- A request closes no socket, and a place without holders has none to leave. -/
  opened : ∀ clock (ifindex : ℕ) withIndex i,
    ((switchGetFdInfo clock s.table ifindex withIndex).1.get i).fd = (s.table.get i).fd
  unheld : ∀ i, (∀ h ∈ s.holders, h.slot ≠ i) → (s.table.get i).fd = -1
  /-- A return closes the socket of its place if no other holder is on it. -/
  closed : ∀ k h now, s.holders[k]? = some h → ∀ i,
    ((switchPutFdInfo now s.table h.slot h.index).get i).fd =
      if i = h.slot ∧ ∀ x ∈ s.holders.eraseIdx k, x.slot ≠ i then -1 else (s.table.get i).fd
  /-- The identifiers of two ports differ if a name says which interface it is. -/
  portIds : (∀ x ∈ s.holders, ∀ y ∈ s.holders,
      x.name.takeWhile (· != 0) = y.name.takeWhile (· != 0) → x.ifindex = y.ifindex) →
    s.holders.Pairwise fun x y => 1 ≤ x.index → 1 ≤ y.index → x.portId ≠ y.portId

theorem HoldInv.range {s : HoldState} (inv : HoldInv s) {x : Holder} (hx : x ∈ s.holders) :
    x.index ≤ 64 := by
  rcases Nat.eq_zero_or_eq_succ_pred x.index with h0 | hsucc
  · omega
  · have hmem := mem_holds hx
    rw [Holder.hold, hsucc] at hmem
    have hlt := BitVec.lt_of_getLsbD ((inv.held.bits _ _).mpr hmem)
    rw [indexBits] at hlt
    omega

theorem HoldInv.indices {s : HoldState} (inv : HoldInv s) : s.holders.Pairwise fun x y =>
    x.ifindex = y.ifindex → x.index = y.index → x.index = 0 := by
  rw [List.pairwise_iff_forall_sublist]
  intro x y hxy hif hindex
  by_contra h0
  have hx := hxy.subset List.mem_cons_self
  have hy := hxy.subset (List.mem_cons_of_mem _ List.mem_cons_self)
  have hslot : x.slot = y.slot := by
    apply inv.held.unique
    · rw [inv.ifindex x hx]
      exact Int.natCast_nonneg _
    · rw [inv.ifindex x hx, inv.ifindex y hy, hif]
  have hsame : x.hold = y.hold := by rw [Holder.hold, Holder.hold, hslot, hindex]
  have hle : x.hold ::ₘ y.hold ::ₘ 0 ≤ s.holds :=
    Multiset.coe_le.mpr (hxy.map Holder.hold).subperm
  have hcount := Multiset.count_le_of_le x.hold hle
  rw [← hsame, Multiset.count_cons_self, Multiset.count_cons_self] at hcount
  obtain ⟨k, hk⟩ := Nat.exists_eq_succ_of_ne_zero h0
  have honce := inv.held.once x.slot k
  rw [← Nat.succ_eq_add_one, ← hk, ← Holder.hold] at honce
  omega

/-- The holders that a failure with a full map has found. -/
theorem HoldInv.failed {s : HoldState} (inv : HoldInv s) (clock : Fin MAX_PHY_PORT → ℕ)
    (ifindex : ℕ) (withIndex : Bool)
    (h : (switchGetFdInfo clock s.table ifindex withIndex).2 = none) :
    (switchGetFdInfo clock s.table ifindex withIndex).1 = s.table ∧
      ((withIndex = true ∧ ∀ k, 1 ≤ k → k ≤ 64 →
          ∃ h ∈ s.holders, h.ifindex = ifindex ∧ h.index = k) ∨
        ∀ i, isFree (clock i) (s.table.get i) = false) := by
  obtain ⟨hsame, hwhy⟩ := inv.held.get_none (Prod.ext rfl h)
  refine ⟨hsame, hwhy.imp_left ?_⟩
  rintro ⟨hw, i, hi, hfull⟩
  refine ⟨hw, fun k hk hle => ?_⟩
  obtain ⟨x, hx, hhold⟩ := List.mem_map.mp (Multiset.mem_coe.mp (hfull k hk hle))
  obtain ⟨hslot, hindex⟩ := Prod.mk.inj hhold
  have hif := inv.ifindex x hx
  rw [hslot, hi] at hif
  exact ⟨x, hx, (Int.ofNat.inj hif).symm, hindex⟩

theorem HoldInv.opened {s : HoldState} (inv : HoldInv s) (clock : Fin MAX_PHY_PORT → ℕ)
    (ifindex : ℕ) (withIndex : Bool) (i : Fin MAX_PHY_PORT) :
    ((switchGetFdInfo clock s.table ifindex withIndex).1.get i).fd = (s.table.get i).fd := by
  cases hg : switchGetFdInfo clock s.table ifindex withIndex with
  | mk table r =>
    cases r with
    | none =>
      have hsame := (inv.held.get_none hg).1
      rw [hsame]
    | some x => exact (inv.held.get (Int.natCast_nonneg ifindex) hg).fds i

theorem HoldInv.closed {s : HoldState} (inv : HoldInv s) {k : ℕ} {h : Holder} (now : ℕ)
    (hk : s.holders[k]? = some h) (i : Fin MAX_PHY_PORT) :
    ((switchPutFdInfo now s.table h.slot h.index).get i).fd =
      if i = h.slot ∧ ∀ x ∈ s.holders.eraseIdx k, x.slot ≠ i then -1
      else (s.table.get i).fd := by
  have held := inv.held
  rw [holds_eraseIdx hk] at held
  by_cases hi : i = h.slot
  · -- the last holder is the one that no other stands beside
    have hlast : holders ↑((s.holders.eraseIdx k).map Holder.hold) h.slot = 0 ↔
        ∀ x ∈ s.holders.eraseIdx k, x.slot ≠ h.slot := by
      rw [holders_eq_zero]
      simp only [Multiset.mem_coe, List.forall_mem_map]
      exact Iff.rfl
    rw [hi, held.put_fd]
    simp only [hlast, true_and]
  · rw [putFdInfo_ne hi, if_neg fun h => hi h.1]

theorem HoldInv.portIds {s : HoldState} (inv : HoldInv s)
    (hname : ∀ x ∈ s.holders, ∀ y ∈ s.holders,
      x.name.takeWhile (· != 0) = y.name.takeWhile (· != 0) → x.ifindex = y.ifindex) :
    s.holders.Pairwise fun x y => 1 ≤ x.index → 1 ≤ y.index → x.portId ≠ y.portId := by
  apply inv.indices.imp_of_mem
  intro x y hx hy hxy h1 _ hid
  have hrx := inv.range hx
  have hry := inv.range hy
  obtain ⟨hn, hi⟩ := portIdText_injective (by omega) (by omega) hid
  have h0 := hxy (hname x hx y hy hn) hi
  omega

theorem HoldInv.apart {s : HoldState} (inv : HoldInv s) : Apart s where
  places := fun x _ y _ hpos hif => inv.held.unique x.slot y.slot hpos hif
  indices := inv.indices
  range := fun x hx => inv.range hx
  failed := inv.failed
  opened := inv.opened
  unheld := by
    intro i hi
    apply inv.held.closed i
    intro y hy
    obtain ⟨x, hx, rfl⟩ := List.mem_map.mp (Multiset.mem_coe.mp hy)
    exact hi x hx
  closed := fun k h now hk i => inv.closed now hk i
  portIds := inv.portIds

/-- Every run of requests and returns, whatever the clock. -/
theorem holdRun_apart {s : HoldState} {ls : List HoldLabel}
    (h : run holdStep .start ls = some s) : Apart s := by
  have inv : HoldInv s := run_invariant (fun _ _ _ hi hs => hi.step hs) HoldInv.start h
  exact inv.apart

/-- Two ports and one without an index on an interface, and one that leaves. -/
theorem holdRun_apart_three : ∃ s, run holdStep .start
      [.get (fun _ => 5) [101, 48] 3 true, .get (fun _ => 5) [101, 48] 3 true,
        .get (fun _ => 5) [101, 48] 3 false, .sock 0 7, .put 2 9] = some s ∧ Apart s := by
  have hrun : (run holdStep .start
      [.get (fun _ => 5) [101, 48] 3 true, .get (fun _ => 5) [101, 48] 3 true,
        .get (fun _ => 5) [101, 48] 3 false, .sock 0 7, .put 2 9]).isSome = true := by decide +kernel
  obtain ⟨s, hs⟩ := Option.isSome_iff_exists.mp hrun
  exact ⟨s, hs, holdRun_apart hs⟩

end NvmeSnsd.Switch
