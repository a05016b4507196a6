import NvmeSnsd.Server.DecodeSpec

/-! Each field of a decoded record depends on the accepted sub-TLVs of its own
types alone, in their order. -/
namespace NvmeSnsd.Server
open Lib

/-- A sub-TLV of type `k` with a length the version accepts. -/
def okSub (ver k : ℕ) (t : Tlv) : Bool := t.type.toNat == k && subLenOk ver k t.value.length

/-- A sub-TLV that its handler accepts. -/
def okAny (ver : ℕ) (t : Tlv) : Bool := subLenOk ver t.type.toNat t.value.length

/-- The last accepted sub-TLV of a type. -/
def lastOk (ver k : ℕ) (subs : List Tlv) : Option Tlv := (subs.filter (okSub ver k)).getLast?

theorem subLenOk_range {ver k l : ℕ} (h : subLenOk ver k l = true) : 1 ≤ k ∧ k ≤ 8 := by
  by_contra hk
  rw [subLenOk_unknown (by omega)] at h
  cases h

theorem okAny_iff {ver : ℕ} {t : Tlv} : okAny ver t = true ↔ ∃ k, okSub ver k t = true := by
  constructor
  · intro h
    exact ⟨t.type.toNat, by rw [okSub, beq_self_eq_true, Bool.true_and]; exact h⟩
  · rintro ⟨k, h⟩
    rw [okSub, Bool.and_eq_true, beq_iff_eq] at h
    rw [okAny, h.1]
    exact h.2

theorem okSub_of_okAny {ver : ℕ} {t : Tlv} (h : okAny ver t = true) (k : ℕ) :
    okSub ver k t = (t.type.toNat == k) := by
  rw [okSub]
  by_cases hk : t.type.toNat = k
  · rw [← hk, beq_self_eq_true, Bool.true_and]
    exact h
  · rw [beq_false_of_ne hk, Bool.false_and]

theorem okSub_of_refused {ver : ℕ} {t : Tlv} (h : okAny ver t = false) (k : ℕ) :
    okSub ver k t = false := by
  rw [Bool.eq_false_iff]
  intro hk
  rw [okAny_iff.mpr ⟨k, hk⟩] at h
  cases h

theorem applySub_ver (m : NtMsg) (t : Tlv) : (applySub m t).ver = m.ver := by
  have hp (k : ℕ) : (putSub m k t).ver = m.ver := by
    unfold putSub
    split <;> rfl
  rw [applySub]
  split
  · exact hp _
  · rfl

/-- A field that one class of sub-TLVs sets is set by that class over any list. -/
theorem foldl_field {α : Type*} (ver : ℕ) (f : NtMsg → α) (g : α → Tlv → α) (P : Tlv → Bool)
    (subs : List Tlv) (hstep : ∀ m, ∀ t ∈ subs, m.ver = ver →
      f (applySub m t) = if P t then g (f m) t else f m) {m : NtMsg} (hm : m.ver = ver) :
    f (subs.foldl applySub m) = (subs.filter P).foldl g (f m) := by
  induction subs generalizing m with
  | nil => rfl
  | cons t subs ih =>
    have hv : (applySub m t).ver = ver := (applySub_ver m t).trans hm
    rw [List.foldl_cons, ih (fun m u hu => hstep m u (List.mem_cons_of_mem _ hu)) hv,
      hstep m t List.mem_cons_self hm, List.filter_cons]
    cases P t <;> rfl

/-- When every step forgets what was there, only the last one counts. -/
theorem foldl_last {α : Type*} {g : α → Tlv → α} {l : List Tlv}
    (h : ∀ a b, ∀ t ∈ l, g a t = g b t) (a : α) :
    l.foldl g a = (l.getLast?.map (g a)).getD a := by
  cases l using List.reverseRecOn with
  | nil => rfl
  | append_singleton l t =>
    rw [List.foldl_append, List.foldl_cons, List.foldl_nil, List.getLast?_concat, Option.map_some,
      Option.getD_some]
    exact h _ _ t (List.mem_append_right l List.mem_cons_self)

/-- How one field changes, from how `putSub` changes it. -/
theorem applySub_field {α : Type*} (f : NtMsg → α) (g : α → Tlv → α) (k : ℕ)
    (hmap : ∀ m map, f { m with map := map } = f m)
    (hput : ∀ m j t, f (putSub m j t) = if j = k then g (f m) t else f m) (m : NtMsg) (t : Tlv) :
    f (applySub m t) = if okSub m.ver k t then g (f m) t else f m := by
  rw [applySub, okSub]
  by_cases hk : t.type.toNat = k
  · rw [hk, beq_self_eq_true, Bool.true_and]
    split
    · rw [hmap, hput, if_pos rfl]
    · rfl
  · rw [beq_false_of_ne hk, Bool.false_and, if_neg Bool.false_ne_true]
    split
    · rw [hmap, hput, if_neg hk]
    · rfl

theorem applySub_seqNumTlv (m : NtMsg) (t : Tlv) : (applySub m t).seqNumTlv =
    if okSub m.ver 5 t then m.seqNumTlv.write 0 t.encode else m.seqNumTlv := by
  refine applySub_field (·.seqNumTlv) (fun s t => s.write 0 t.encode) 5 (fun _ _ => rfl) ?_ m t
  intro m j t
  unfold putSub
  split <;> simp_all

theorem applySub_stateTlv (m : NtMsg) (t : Tlv) : (applySub m t).stateTlv =
    if okSub m.ver 6 t then m.stateTlv.write 0 (wordOf t) else m.stateTlv := by
  refine applySub_field (·.stateTlv) (fun s t => s.write 0 (wordOf t)) 6 (fun _ _ => rfl) ?_ m t
  intro m j t
  unfold putSub
  split <;> simp_all

theorem applySub_ntReasonTlv (m : NtMsg) (t : Tlv) : (applySub m t).ntReasonTlv =
    if okSub m.ver 7 t then m.ntReasonTlv.write 0 (wordOf t) else m.ntReasonTlv := by
  refine applySub_field (·.ntReasonTlv) (fun s t => s.write 0 (wordOf t)) 7 (fun _ _ => rfl) ?_ m t
  intro m j t
  unfold putSub
  split <;> simp_all

theorem applySub_adInfoTlv (m : NtMsg) (t : Tlv) : (applySub m t).adInfoTlv =
    if okSub m.ver 8 t then swapPort (m.adInfoTlv.write 0 t.encode) else m.adInfoTlv := by
  refine applySub_field (·.adInfoTlv) (fun a t => swapPort (a.write 0 t.encode)) 8
    (fun _ _ => rfl) ?_ m t
  intro m j t
  unfold putSub
  split <;> simp_all

theorem applySub_of_refused {m : NtMsg} {t : Tlv} (h : okAny m.ver t = false) :
    applySub m t = m := by
  rw [okAny] at h
  rw [applySub, h, if_neg Bool.false_ne_true]

theorem applySub_of_okAny {m : NtMsg} {t : Tlv} (h : okAny m.ver t = true) :
    applySub m t = { putSub m t.type.toNat t with map := m.map ||| 2^(t.type.toNat-1) } := by
  rw [okAny] at h
  rw [applySub, h, if_pos rfl]

theorem applySub_family (m : NtMsg) (t : Tlv) : (applySub m t).family =
    if okSub m.ver 1 t then AF_INET else if okSub m.ver 3 t then AF_INET6 else m.family := by
  cases h : okAny m.ver t with
  | false => simp only [applySub_of_refused h, okSub_of_refused h, Bool.false_eq_true, if_false]
  | true =>
    simp only [applySub_of_okAny h, okSub_of_okAny h, beq_iff_eq]
    unfold putSub
    split <;> simp_all

theorem applySub_ipTlv (m : NtMsg) (t : Tlv) : (applySub m t).ipTlv =
    if okSub m.ver 1 t then m.ipTlv.write 0 t.encode
    else if okSub m.ver 2 t then m.ipTlv.write 7 t.encode
    else if okSub m.ver 3 t then m.ipTlv.write 0 t.encode
    else if okSub m.ver 4 t then m.ipTlv.write 19 t.encode
    else m.ipTlv := by
  cases h : okAny m.ver t with
  | false => simp only [applySub_of_refused h, okSub_of_refused h, Bool.false_eq_true, if_false]
  | true =>
    simp only [applySub_of_okAny h, okSub_of_okAny h, beq_iff_eq]
    unfold putSub
    split <;> simp_all

theorem applySub_map (m : NtMsg) (t : Tlv) : (applySub m t).map =
    if okAny m.ver t then m.map ||| 2^(t.type.toNat-1) else m.map := by
  rw [applySub, okAny]
  split <;> rfl

/-- Bit `j` of the map says whether a sub-TLV of type `j+1` was accepted. -/
theorem foldl_map_testBit {ver : ℕ} (subs : List Tlv) {m : NtMsg} (hm : m.ver = ver) (j : ℕ) :
    (subs.foldl applySub m).map.testBit j = (m.map.testBit j || subs.any (okSub ver (j+1))) := by
  induction subs generalizing m with
  | nil => rw [List.foldl_nil, List.any_nil, Bool.or_false]
  | cons t subs ih =>
    have hv : (applySub m t).ver = ver := (applySub_ver m t).trans hm
    have hbit : (applySub m t).map.testBit j = (m.map.testBit j || okSub ver (j+1) t) := by
      subst hm
      rw [applySub_map]
      cases h : okAny m.ver t with
      | false => rw [if_neg Bool.false_ne_true, okSub_of_refused h, Bool.or_false]
      | true =>
        have hr := subLenOk_range h
        rw [if_pos rfl, okSub_of_okAny h, Nat.testBit_or, Nat.testBit_two_pow]
        congr 1
        rw [Bool.beq_eq_decide_eq, decide_eq_decide]
        omega
    rw [List.foldl_cons, ih hv, hbit, List.any_cons, Bool.or_assoc]

/-! The record made by a list of sub-TLVs, field by field. -/

section Record
variable {ver : ℕ} {subs : List Tlv}

theorem recordOf_ver (ver : ℕ) (subs : List Tlv) : (recordOf ver subs).ver = ver := by
  have h := foldl_field ver (·.ver) (fun v _ => v) (fun _ => false) subs
    (fun m t _ _ => applySub_ver m t) (m := NtMsg.init ver) rfl
  rw [List.filter_false, List.foldl_nil] at h
  exact h

theorem recordOf_map_testBit (j : ℕ) :
    (recordOf ver subs).map.testBit j = subs.any (okSub ver (j+1)) := by
  rw [recordOf, foldl_map_testBit subs rfl]
  simp only [NtMsg.init, Nat.zero_testBit, Bool.false_or]

theorem encode_length_of_okSub {k : ℕ} {t : Tlv} (h : okSub ver k t = true) :
    subLenOk ver k (t.encode.length-3) = true ∧ 3 ≤ t.encode.length := by
  rw [okSub, Bool.and_eq_true] at h
  rw [Tlv.encode_length, Tlv.size, Nat.add_sub_cancel_left]
  exact ⟨h.2, by omega⟩

/-- Writing a whole object forgets what it held. -/
theorem write_all {n : ℕ} (a b : Mem n) {src : Bytes} (h : src.length = n) :
    a.write 0 src = b.write 0 src := by
  have hb (m : Mem n) : (m.write 0 src).bytes = src := by
    have hs := m.size
    rw [Mem.write_bytes (by omega), List.take_zero, List.nil_append, Nat.zero_add, h,
      List.drop_of_length_le (by omega), List.append_nil]
  exact Mem.ext ((hb a).trans (hb b).symm)

theorem recordOf_seqNumTlv : (recordOf ver subs).seqNumTlv =
    ((lastOk ver 5 subs).map fun t => (Mem.zero 7).write 0 t.encode).getD (Mem.zero 7) := by
  have h := foldl_field ver (·.seqNumTlv) (fun s t => s.write 0 t.encode) (okSub ver 5)
    subs (fun m t _ hm => hm ▸ applySub_seqNumTlv m t) (m := NtMsg.init ver) rfl
  refine h.trans (foldl_last ?_ _)
  intro a b t ht
  have hk := encode_length_of_okSub (List.mem_filter.mp ht).2
  simp only [subLenOk, beq_iff_eq] at hk
  exact write_all a b (by omega)

theorem wordOf_length {t : Tlv} (h : t.value.length ≤ 4) : (wordOf t).length = 7 := by
  simp only [wordOf, List.length_append, List.length_cons, beBytes16_length, List.length_reverse,
    List.length_replicate]
  omega

theorem okSub_word_le {k : ℕ} {t : Tlv} (hk : k = 6 ∨ k = 7) (h : okSub ver k t = true) :
    t.value.length ≤ 4 := by
  rw [okSub, Bool.and_eq_true] at h
  rcases hk with rfl | rfl <;> exact wordLenOk_le h.2

theorem recordOf_stateTlv : (recordOf ver subs).stateTlv =
    ((lastOk ver 6 subs).map fun t => (Mem.zero 7).write 0 (wordOf t)).getD (Mem.zero 7) := by
  have h := foldl_field ver (·.stateTlv) (fun s t => s.write 0 (wordOf t)) (okSub ver 6)
    subs (fun m t _ hm => hm ▸ applySub_stateTlv m t) (m := NtMsg.init ver) rfl
  refine h.trans (foldl_last ?_ _)
  intro a b t ht
  exact write_all a b (wordOf_length (okSub_word_le (.inl rfl) (List.mem_filter.mp ht).2))

theorem recordOf_ntReasonTlv : (recordOf ver subs).ntReasonTlv =
    ((lastOk ver 7 subs).map fun t => (Mem.zero 7).write 0 (wordOf t)).getD (Mem.zero 7) := by
  have h := foldl_field ver (·.ntReasonTlv) (fun s t => s.write 0 (wordOf t)) (okSub ver 7)
    subs (fun m t _ hm => hm ▸ applySub_ntReasonTlv m t) (m := NtMsg.init ver) rfl
  refine h.trans (foldl_last ?_ _)
  intro a b t ht
  exact write_all a b (wordOf_length (okSub_word_le (.inr rfl) (List.mem_filter.mp ht).2))

/-- The additional information keeps what a shorter later item leaves. -/
theorem recordOf_adInfoTlv : (recordOf ver subs).adInfoTlv =
    (subs.filter (okSub ver 8)).foldl (fun a t => swapPort (a.write 0 t.encode)) (Mem.zero 266) :=
  foldl_field ver (·.adInfoTlv) (fun a t => swapPort (a.write 0 t.encode)) (okSub ver 8)
    subs (fun m t _ hm => hm ▸ applySub_adInfoTlv m t) (m := NtMsg.init ver) rfl

/-! The two families use the union from its start: `v6` tells them apart. -/

def srcType (v6 : Bool) : ℕ := if v6 then 3 else 1

def dstType (v6 : Bool) : ℕ := if v6 then 4 else 2

/-- `sizeof` the family's address sub-TLV. -/
def ipTlvSize (v6 : Bool) : ℕ := if v6 then 19 else 7

def familyOf (v6 : Bool) : ℕ := if v6 then AF_INET6 else AF_INET

/-- No address of the other family was accepted. -/
def OneFamily (ver : ℕ) (v6 : Bool) (subs : List Tlv) : Prop :=
  ∀ t ∈ subs, okSub ver (srcType !v6) t = false ∧ okSub ver (dstType !v6) t = false

theorem recordOf_family {v6 : Bool} (hone : OneFamily ver v6 subs) : (recordOf ver subs).family =
    ((lastOk ver (srcType v6) subs).map fun _ => familyOf v6).getD 0 := by
  have h := foldl_field ver (·.family) (fun _ _ => familyOf v6) (okSub ver (srcType v6))
    subs (fun m t ht hm => ?_) (m := NtMsg.init ver) rfl
  · exact h.trans (foldl_last (fun _ _ _ _ => rfl) _)
  · have ho := (hone t ht).1
    subst hm
    have hf := applySub_family m t
    cases v6 <;> simp_all [srcType, familyOf]

theorem okSub_ip_length {v6 : Bool} {k : ℕ} {t : Tlv} (hk : k = srcType v6 ∨ k = dstType v6)
    (h : okSub ver k t = true) : t.encode.length = ipTlvSize v6 := by
  have hl := encode_length_of_okSub h
  cases v6 <;> rcases hk with rfl | rfl <;>
    simp only [srcType, dstType, Bool.false_eq_true, if_false, if_true, subLenOk, beq_iff_eq] at hl <;>
    simp only [ipTlvSize, Bool.false_eq_true, if_false, if_true] <;> omega

/-- The union after one sub-TLV of a list with one family. -/
theorem applySub_ip_family {v6 : Bool} {m : NtMsg} {t : Tlv} (hm : m.ver = ver)
    (hone : okSub ver (srcType !v6) t = false ∧ okSub ver (dstType !v6) t = false) :
    (applySub m t).ipTlv =
      if okSub ver (srcType v6) t then m.ipTlv.write 0 t.encode
      else if okSub ver (dstType v6) t then m.ipTlv.write (ipTlvSize v6) t.encode
      else m.ipTlv := by
  subst hm
  have hip := applySub_ipTlv m t
  cases v6 <;> simp_all [srcType, dstType, ipTlvSize]

theorem ipTlvSize_le (v6 : Bool) : ipTlvSize v6+ipTlvSize v6 ≤ 38 := by cases v6 <;> decide

/-- The source of the record's family is the first structure of the union. -/
theorem recordOf_ip_src {v6 : Bool} (hone : OneFamily ver v6 subs) :
    (recordOf ver subs).ipTlv.read 0 (ipTlvSize v6) =
      ((lastOk ver (srcType v6) subs).map Tlv.encode).getD (List.replicate (ipTlvSize v6) 0) := by
  have hsz := ipTlvSize_le v6
  have h := foldl_field ver (fun m => m.ipTlv.read 0 (ipTlvSize v6))
    (fun _ t => t.encode) (okSub ver (srcType v6)) subs (fun m t ht hm => ?_)
    (m := NtMsg.init ver) rfl
  · refine h.trans ((foldl_last (fun _ _ _ _ => rfl) _).trans ?_)
    rw [NtMsg.init, Mem.read_zero 0 _ (by omega)]
    rfl
  · rw [applySub_ip_family hm (hone t ht)]
    split_ifs with hs hd
    · have hl := okSub_ip_length (.inl rfl) hs
      rw [← hl]
      exact Mem.read_write (by omega)
    · exact Mem.read_write_before (by omega)
    · rfl

/-- The destination is the structure behind it. -/
theorem recordOf_ip_dst {v6 : Bool} (hone : OneFamily ver v6 subs) :
    (recordOf ver subs).ipTlv.read (ipTlvSize v6) (ipTlvSize v6) =
      ((lastOk ver (dstType v6) subs).map Tlv.encode).getD (List.replicate (ipTlvSize v6) 0) := by
  have hsz := ipTlvSize_le v6
  have h := foldl_field ver (fun m => m.ipTlv.read (ipTlvSize v6) (ipTlvSize v6))
    (fun _ t => t.encode) (okSub ver (dstType v6)) subs (fun m t ht hm => ?_)
    (m := NtMsg.init ver) rfl
  · refine h.trans ((foldl_last (fun _ _ _ _ => rfl) _).trans ?_)
    rw [NtMsg.init, Mem.read_zero _ _ (by omega)]
    rfl
  · have hne : srcType v6 ≠ dstType v6 := by cases v6 <;> decide
    rw [applySub_ip_family hm (hone t ht)]
    split_ifs with hs hd hd
    · rw [okSub, Bool.and_eq_true, beq_iff_eq] at hs hd
      exact absurd (hs.1.symm.trans hd.1) hne
    · have hl := okSub_ip_length (.inl rfl) hs
      exact Mem.read_write_after (by rw [Nat.zero_add, hl])
    · have hl := okSub_ip_length (.inr rfl) hd
      have hw := Mem.read_write (m := m.ipTlv) (o := ipTlvSize v6) (s := t.encode) (by omega)
      rw [hl] at hw
      exact hw
    · rfl

/-- What lies behind the addresses of the record's family stays clear. -/
theorem recordOf_ip_tail {v6 : Bool} (hone : OneFamily ver v6 subs) {k l : ℕ}
    (hk : ipTlvSize v6+ipTlvSize v6 ≤ k) (hl : k+l ≤ 38) :
    (recordOf ver subs).ipTlv.read k l = List.replicate l 0 := by
  have h := foldl_field ver (fun m => m.ipTlv.read k l) (fun b _ => b) (fun _ => false)
    subs (fun m t ht hm => ?_) (m := NtMsg.init ver) rfl
  · refine h.trans ?_
    rw [List.filter_false, List.foldl_nil, NtMsg.init, Mem.read_zero _ _ hl]
  · rw [applySub_ip_family hm (hone t ht), if_neg Bool.false_ne_true]
    split_ifs with hs hd
    · have hl := okSub_ip_length (.inl rfl) hs
      exact Mem.read_write_after (by omega)
    · have hl := okSub_ip_length (.inr rfl) hd
      exact Mem.read_write_after (by omega)
    · rfl

end Record

end NvmeSnsd.Server
