import NvmeSnsd.Switch.Fd
import Mathlib.Data.Multiset.Count

/-! Who holds the places of the table: the references of a place, the bits of its map
and its socket follow from its holders alone. -/
namespace NvmeSnsd.Switch
open Lib Cfg Mgt

/-- A place and the index that was given on it, 0 for a holder without one. -/
abbrev Hold := Fin MAX_PHY_PORT × ℕ

/-! The map. -/

section Index
variable {map : BitVec indexBits} {k : ℕ}

theorem getIndex_taken (h : (switchGetIndex map).2 = 0) {j : ℕ} (hj : j < indexBits) :
    map.getLsbD j = true := by
  rw [switchGetIndex] at h
  cases hf : (List.range indexBits).find? fun i => !map.getLsbD i with
  | none =>
    have hall := List.find?_eq_none.mp hf j (List.mem_range.mpr hj)
    simpa using hall
  | some i =>
    rw [hf] at h
    cases h

/-- The index that is given was free, and is set beside the others. -/
theorem getIndex_given (h : (switchGetIndex map).2 ≠ 0) :
    ∃ b, (switchGetIndex map).2 = b+1 ∧ map.getLsbD b = false ∧
      ∀ j, (switchGetIndex map).1.getLsbD j = true ↔ j = b ∨ map.getLsbD j = true := by
  rw [switchGetIndex] at h ⊢
  cases hf : (List.range indexBits).find? fun i => !map.getLsbD i with
  | none =>
    rw [hf] at h
    exact absurd rfl h
  | some b =>
    have hb : b < indexBits := List.mem_range.mp (List.mem_of_find?_eq_some hf)
    refine ⟨b, rfl, by simpa using List.find?_some hf, fun j => ?_⟩
    simp only [BitVec.getLsbD_or, BitVec.getLsbD_twoPow, hb, decide_true, Bool.true_and,
      Bool.or_eq_true, decide_eq_true_eq]
    tauto

theorem putIndex_bit {j : ℕ} :
    (switchPutIndex map k).getLsbD j = true ↔ map.getLsbD j = true ∧ j+1 ≠ k := by
  rw [switchPutIndex]
  split_ifs with hk
  · subst hk
    simp
  · have hlt : map.getLsbD j = true → j < indexBits := BitVec.lt_of_getLsbD
    simp only [BitVec.getLsbD_and, BitVec.getLsbD_not, BitVec.getLsbD_twoPow]
    grind

end Index

/-! The table. -/

/-- How often a place is held. -/
def holders (hs : Multiset Hold) (i : Fin MAX_PHY_PORT) : ℕ := hs.countP fun h => h.1 = i

theorem holders_cons (x : Hold) (hs : Multiset Hold) (i : Fin MAX_PHY_PORT) :
    holders (x ::ₘ hs) i = holders hs i+if x.1 = i then 1 else 0 := Multiset.countP_cons ..

theorem holders_eq_zero {hs : Multiset Hold} {i : Fin MAX_PHY_PORT} :
    holders hs i = 0 ↔ ∀ h ∈ hs, h.1 ≠ i := Multiset.countP_eq_zero

/-- The table as its holders make it. -/
structure Held (table : FdTable) (hs : Multiset Hold) : Prop where
  refs : ∀ i, (table.get i).refs = holders hs i
  bits : ∀ i k, (table.get i).indexMap.getLsbD k = true ↔ (i, k+1) ∈ hs
  once : ∀ i k, hs.count (i, k+1) ≤ 1
  taken : ∀ h ∈ hs, 0 ≤ (table.get h.1).ifindex
  unique : ∀ i j, 0 ≤ (table.get i).ifindex → (table.get i).ifindex = (table.get j).ifindex → i = j
  closed : ∀ i, (∀ h ∈ hs, h.1 ≠ i) → (table.get i).fd = -1

section Table
variable {clock : Fin MAX_PHY_PORT → ℕ} {table table' : FdTable} {ifindex : ℤ} {withIndex : Bool}
  {r : Option Hold} {hs : Multiset Hold} {i : Fin MAX_PHY_PORT} {k now : ℕ}

attribute [local irreducible] setAt

/-- What can become of a request: it fails, it shares the place of its interface, or
it takes a place that is free. -/
theorem getFdInfo_cases (h : switchGetFdInfo clock table ifindex withIndex = (table', r)) :
    (r = none ∧ table' = table ∧
      ((withIndex = true ∧ ∃ i, (table.get i).ifindex = ifindex ∧
          ∀ j, j < indexBits → (table.get i).indexMap.getLsbD j = true) ∨
        ∀ i, isFree (clock i) (table.get i) = false)) ∨
    (∃ i k map, r = some (i, k) ∧ (table.get i).ifindex = ifindex ∧
      table' = setAt table i { table.get i with indexMap := map, refs := (table.get i).refs+1 } ∧
      (k = 0 ↔ withIndex = false) ∧ (∀ b, k = b+1 → (table.get i).indexMap.getLsbD b = false) ∧
      ∀ j, map.getLsbD j = true ↔ j+1 = k ∨ (table.get i).indexMap.getLsbD j = true) ∨
    (∃ i k map, r = some (i, k) ∧ (∀ j, (table.get j).ifindex ≠ ifindex) ∧
      isFree (clock i) (table.get i) = true ∧
      table' = setAt table i { table.get i with indexMap := map, refs := 1, ifindex := ifindex } ∧
      ((k = 0 ∧ withIndex = false ∧ map = (table.get i).indexMap) ∨
        (k = 1 ∧ withIndex = true ∧ map = 1))) := by
  unfold switchGetFdInfo at h
  cases hf : firstIdx table (·.ifindex == ifindex) with
  | some i =>
    have hi : (table.get i).ifindex = ifindex := by simpa using firstIdx_holds hf
    rw [hf] at h
    dsimp only at h
    cases withIndex with
    | false =>
      rw [if_neg Bool.false_ne_true] at h
      obtain ⟨rfl, rfl⟩ := Prod.mk.inj h
      refine Or.inr (Or.inl ⟨i, 0, (table.get i).indexMap, rfl, hi, rfl, by simp, ?_, ?_⟩)
      · intro b hb
        cases hb
      · intro j
        simp
    | true =>
      rw [if_pos rfl] at h
      by_cases h0 : (switchGetIndex (table.get i).indexMap).2 = 0
      · rw [if_pos h0] at h
        obtain ⟨rfl, rfl⟩ := Prod.mk.inj h
        exact Or.inl ⟨rfl, rfl, Or.inl ⟨rfl, i, hi, fun j hj => getIndex_taken h0 hj⟩⟩
      · rw [if_neg h0] at h
        obtain ⟨rfl, rfl⟩ := Prod.mk.inj h
        obtain ⟨b, hb, hfree, hset⟩ := getIndex_given h0
        refine Or.inr (Or.inl ⟨i, _, _, rfl, hi, rfl, by simp [h0], ?_, ?_⟩)
        · intro c hc
          rwa [← Nat.succ.inj (hb.symm.trans hc)]
        · intro j
          rw [hb, hset, Nat.add_right_cancel_iff]
  | none =>
    have hnone : ∀ j, (table.get j).ifindex ≠ ifindex := by
      intro j
      simpa using firstIdx_eq_none.mp hf j
    rw [hf] at h
    dsimp only at h
    cases hg : Fin.find? fun i => isFree (clock i) (table.get i) with
    | none =>
      rw [hg] at h
      obtain ⟨rfl, rfl⟩ := Prod.mk.inj h
      exact Or.inl ⟨rfl, rfl, Or.inr (Fin.find?_eq_none_iff.mp hg)⟩
    | some i =>
      have hi := (Fin.find?_eq_some_iff.mp hg).1
      rw [hg] at h
      dsimp only at h
      cases withIndex with
      | false =>
        rw [if_neg Bool.false_ne_true] at h
        obtain ⟨rfl, rfl⟩ := Prod.mk.inj h
        exact Or.inr (Or.inr ⟨i, 0, _, rfl, hnone, hi, rfl, Or.inl ⟨rfl, rfl, rfl⟩⟩)
      | true =>
        rw [if_pos rfl] at h
        obtain ⟨rfl, rfl⟩ := Prod.mk.inj h
        exact Or.inr (Or.inr ⟨i, 1, _, rfl, hnone, hi, rfl, Or.inr ⟨rfl, rfl, rfl⟩⟩)

theorem Held.init : Held switchPortInit 0 := by
  have hget : ∀ i, switchPortInit.get i = switchFdInit := fun i => Vector.getElem_replicate _
  refine ⟨fun i => ?_, fun i k => ?_, fun i k => ?_, fun h hh => ?_, fun i j hi => ?_, fun i _ => ?_⟩
  · rw [hget]
    rfl
  · rw [hget]
    simp [switchFdInit]
  · rw [Multiset.count_zero]
    exact Nat.zero_le 1
  · exact absurd hh (Multiset.notMem_zero h)
  · rw [hget] at hi
    exact absurd hi (by decide)
  · rw [hget]
    rfl

/-- A place takes one more holder. -/
theorem Held.cons_set (held : Held table hs) {fd : SwitchPortFd}
    (hrefs : fd.refs = (holders hs i : ℤ)+1)
    (hbits : ∀ b, fd.indexMap.getLsbD b = true ↔
      b+1 = k ∨ (table.get i).indexMap.getLsbD b = true)
    (hfresh : ∀ b, k = b+1 → (table.get i).indexMap.getLsbD b = false) (hpos : 0 ≤ fd.ifindex)
    (hother : ∀ j, j ≠ i → (table.get j).ifindex ≠ fd.ifindex) :
    Held (setAt table i fd) ((i, k) ::ₘ hs) := by
  refine ⟨fun j => ?_, fun j b => ?_, fun j b => ?_, fun h hh => ?_, fun j l hj hjl => ?_,
    fun j hj => ?_⟩
  · by_cases hji : j = i
    · subst hji
      rw [get_setAt_self, hrefs, holders_cons, if_pos rfl, Nat.cast_succ]
    · rw [get_setAt_ne _ hji, held.refs, holders_cons, if_neg (Ne.symm hji), Nat.add_zero]
  · by_cases hji : j = i
    · subst hji
      rw [get_setAt_self, hbits, held.bits, Multiset.mem_cons, Prod.mk.injEq]
      tauto
    · rw [get_setAt_ne _ hji, held.bits, Multiset.mem_cons, Prod.mk.injEq]
      tauto
  · rw [Multiset.count_cons]
    split_ifs with heq
    · obtain ⟨rfl, hb⟩ := Prod.mk.inj heq
      have hnot : (j, b+1) ∉ hs := by
        rw [← held.bits, hfresh b hb.symm]
        exact Bool.false_ne_true
      rw [Multiset.count_eq_zero_of_notMem hnot]
    · exact held.once j b
  · by_cases hji : h.1 = i
    · rw [hji, get_setAt_self]
      exact hpos
    · rw [get_setAt_ne _ hji]
      rcases Multiset.mem_cons.mp hh with rfl | hh
      · exact absurd rfl hji
      · exact held.taken h hh
  · by_cases hji : j = i <;> by_cases hli : l = i
    · rw [hji, hli]
    · rw [hji, get_setAt_self, get_setAt_ne _ hli] at hjl
      exact absurd hjl.symm (hother l hli)
    · rw [hli, get_setAt_self, get_setAt_ne _ hji] at hjl
      exact absurd hjl (hother j hji)
    · rw [get_setAt_ne _ hji] at hj hjl
      rw [get_setAt_ne _ hli] at hjl
      exact held.unique j l hj hjl
  · have hji : j ≠ i := fun hji => hj (i, k) (Multiset.mem_cons_self _ _) hji.symm
    rw [get_setAt_ne _ hji]
    exact held.closed j fun h hh => hj h (Multiset.mem_cons_of_mem hh)

/-- A place that another interface may take has no holder. -/
theorem Held.free (held : Held table hs) (h : isFree now (table.get i) = true) :
    ∀ x ∈ hs, x.1 ≠ i := by
  rintro x hx rfl
  have htaken := held.taken x hx
  have hrefs := held.refs x.1
  have hpos : 0 < holders hs x.1 := Multiset.countP_pos_of_mem hx rfl
  simp only [isFree, Bool.or_eq_true, decide_eq_true_eq, Bool.and_eq_true] at h
  omega

/-- What a request that succeeds gives, and what it leaves to the other holders. -/
structure Granted (table : FdTable) (hs : Multiset Hold) (ifindex : ℤ) (withIndex : Bool)
    (table' : FdTable) (x : Hold) : Prop where
  held : Held table' (x ::ₘ hs)
  ifindex : (table'.get x.1).ifindex = ifindex
  index : x.2 = 0 ↔ withIndex = false
  kept : ∀ h ∈ hs, (table'.get h.1).ifindex = (table.get h.1).ifindex
  fds : ∀ j, (table'.get j).fd = (table.get j).fd

theorem Held.get (held : Held table hs) (hpos : 0 ≤ ifindex) {x : Hold}
    (h : switchGetFdInfo clock table ifindex withIndex = (table', some x)) :
    Granted table hs ifindex withIndex table' x := by
  rcases getFdInfo_cases h with ⟨hr, -⟩ | ⟨i, k, map, hr, hi, rfl, hk, hfresh, hmap⟩ |
    ⟨i, k, map, hr, hnone, hfree, rfl, hmap⟩
  · cases hr
  · obtain rfl := Option.some.inj hr
    refine ⟨held.cons_set (by rw [held.refs]) (fun b => hmap b) hfresh (by rwa [hi]) ?_,
      by rw [get_setAt_self, hi], hk, fun y hy => ?_, fun j => ?_⟩
    · intro j hji heq
      exact hji (held.unique j i (by rw [heq]; rwa [hi]) heq)
    · by_cases hyi : y.1 = i
      · rw [hyi, get_setAt_self]
      · rw [get_setAt_ne _ hyi]
    · by_cases hji : j = i
      · rw [hji, get_setAt_self]
      · rw [get_setAt_ne _ hji]
  · obtain rfl := Option.some.inj hr
    have hnot := held.free hfree
    have hclear : ∀ b, (table.get i).indexMap.getLsbD b = false := by
      intro b
      rw [← Bool.not_eq_true, held.bits]
      exact fun hb => hnot _ hb rfl
    have hone : ∀ b, (1 : BitVec indexBits).getLsbD b = true ↔ b+1 = 1 := by
      intro b
      simp [BitVec.getLsbD_one, indexBits]
    refine ⟨held.cons_set (by rw [holders_eq_zero.mpr hnot]; rfl) (fun b => ?_)
      (fun b _ => hclear b) hpos (fun j _ => hnone j), by rw [get_setAt_self], ?_,
      fun y hy => by rw [get_setAt_ne _ (hnot y hy)], fun j => ?_⟩
    · rcases hmap with ⟨rfl, -, rfl⟩ | ⟨rfl, -, rfl⟩
      · simp [hclear]
      · rw [hone, hclear]
        simp
    · rcases hmap with ⟨rfl, rfl, -⟩ | ⟨rfl, rfl, -⟩ <;> simp
    · by_cases hji : j = i
      · rw [hji, get_setAt_self]
      · rw [get_setAt_ne _ hji]

/-- A request that fails changes nothing: 64 indices are held on the interface, or no
place is free. -/
theorem Held.get_none (held : Held table hs)
    (h : switchGetFdInfo clock table ifindex withIndex = (table', none)) :
    table' = table ∧
      ((withIndex = true ∧ ∃ i, (table.get i).ifindex = ifindex ∧
          ∀ k, 1 ≤ k → k ≤ indexBits → (i, k) ∈ hs) ∨
        ∀ i, isFree (clock i) (table.get i) = false) := by
  rcases getFdInfo_cases h with ⟨-, rfl, hwhy⟩ | ⟨i, k, map, hr, -⟩ | ⟨i, k, map, hr, -⟩
  · refine ⟨rfl, hwhy.imp_left ?_⟩
    rintro ⟨hw, i, hi, hfull⟩
    refine ⟨hw, i, hi, fun k hk hle => ?_⟩
    obtain ⟨b, rfl⟩ := Nat.exists_eq_add_of_le' hk
    exact (held.bits i b).mp (hfull b (by omega))
  · cases hr
  · cases hr

theorem putFdInfo_self :
    (switchPutFdInfo now table i k).get i = { table.get i with
      refs := (table.get i).refs-1
      indexMap := switchPutIndex (table.get i).indexMap k
      fd := if (table.get i).refs-1 ≤ 0 then -1 else (table.get i).fd
      oldTime := now+LLDP_OLD_TIME+LLDP_WAIT_OLD_TIME } := by
  unfold switchPutFdInfo
  exact get_setAt_self _ _ _

theorem putFdInfo_ne {j : Fin MAX_PHY_PORT} (h : j ≠ i) :
    (switchPutFdInfo now table i k).get j = table.get j := by
  unfold switchPutFdInfo
  exact get_setAt_ne _ h _

theorem putFdInfo_ifindex (j : Fin MAX_PHY_PORT) :
    ((switchPutFdInfo now table i k).get j).ifindex = (table.get j).ifindex := by
  by_cases hji : j = i
  · rw [hji, putFdInfo_self]
  · rw [putFdInfo_ne hji]

/-- The socket goes with the last holder. -/
theorem Held.put_fd (held : Held table ((i, k) ::ₘ hs)) :
    ((switchPutFdInfo now table i k).get i).fd =
      if holders hs i = 0 then -1 else (table.get i).fd := by
  have hrefs := held.refs i
  rw [holders_cons, if_pos rfl] at hrefs
  rw [putFdInfo_self]
  dsimp only
  by_cases hzero : holders hs i = 0
  · rw [if_pos (by omega), if_pos hzero]
  · rw [if_neg (by omega), if_neg hzero]

/-- A holder returns what it has. -/
theorem Held.put (held : Held table ((i, k) ::ₘ hs)) : Held (switchPutFdInfo now table i k) hs := by
  have hrefs := held.refs i
  rw [holders_cons, if_pos rfl] at hrefs
  refine ⟨fun j => ?_, fun j b => ?_, fun j b => ?_, fun h hh => ?_, fun j l hj hjl => ?_,
    fun j hj => ?_⟩
  · by_cases hji : j = i
    · rw [hji, putFdInfo_self]
      dsimp only
      omega
    · rw [putFdInfo_ne hji, held.refs, holders_cons, if_neg (Ne.symm hji), Nat.add_zero]
  · by_cases hji : j = i
    · subst hji
      have honce := held.once j b
      rw [putFdInfo_self, putIndex_bit, held.bits, Multiset.mem_cons]
      by_cases hb : b+1 = k
      · rw [hb, Multiset.count_cons_self] at honce
        have hnot : (j, k) ∉ hs := Multiset.count_eq_zero.mp (by omega)
        rw [hb]
        simp only [hnot, ne_eq, not_true_eq_false, and_false]
      · simp only [Prod.mk.injEq, hb, and_false, false_or, ne_eq, not_false_eq_true, and_true]
    · rw [putFdInfo_ne hji, held.bits, Multiset.mem_cons, Prod.mk.injEq]
      tauto
  · exact (Multiset.count_le_count_cons _ _ _).trans (held.once j b)
  · rw [putFdInfo_ifindex]
    exact held.taken h (Multiset.mem_cons_of_mem hh)
  · rw [putFdInfo_ifindex] at hj hjl
    rw [putFdInfo_ifindex] at hjl
    exact held.unique j l hj hjl
  · by_cases hji : j = i
    · subst hji
      rw [held.put_fd, if_pos (holders_eq_zero.mpr hj)]
    · rw [putFdInfo_ne hji]
      apply held.closed j
      intro h hh
      rcases Multiset.mem_cons.mp hh with rfl | hh
      · exact Ne.symm hji
      · exact hj h hh

/-- A socket is stored at a place that is held. -/
theorem Held.setFd (held : Held table hs) (hi : ∃ h ∈ hs, h.1 = i) (fd : ℤ) :
    Held (setAt table i { table.get i with fd := fd }) hs := by
  have hsame : ∀ j, (setAt table i { table.get i with fd := fd }).get j =
      { table.get j with fd := if j = i then fd else (table.get j).fd } := by
    intro j
    by_cases hji : j = i
    · rw [hji, get_setAt_self, if_pos rfl]
    · rw [get_setAt_ne _ hji, if_neg hji]
  refine ⟨fun j => ?_, fun j b => ?_, held.once, fun h hh => ?_, fun j l hj hjl => ?_, fun j hj => ?_⟩
  · rw [hsame, held.refs]
  · rw [hsame, held.bits]
  · rw [hsame]
    exact held.taken h hh
  · rw [hsame] at hj hjl
    rw [hsame] at hjl
    exact held.unique j l hj hjl
  · obtain ⟨h, hh, hhi⟩ := hi
    rw [hsame]
    dsimp only
    rw [if_neg fun hji => hj h hh (hhi.trans hji.symm)]
    exact held.closed j hj

end Table

end NvmeSnsd.Switch
