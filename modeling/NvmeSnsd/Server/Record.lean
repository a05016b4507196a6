import NvmeSnsd.Server.Message

/-! The handlers store what the sub-TLV means, and never touch memory outside
the value they are given or the field they fill. -/
namespace NvmeSnsd.Server
open Lib

section Handlers
variable {p : Ptr} {type : UInt8} {len : ℕ}

/-- The item whose value is the `len` bytes at `p`. -/
def tlvAt (p : Ptr) (type : UInt8) (len : ℕ) : Tlv := ⟨type, (p.mem.drop p.off).take len⟩

@[simp] theorem tlvAt_type (p : Ptr) (type : UInt8) (len : ℕ) : (tlvAt p type len).type = type := rfl

theorem tlvAt_value_length (hp : p.off+len ≤ p.mem.length) :
    (tlvAt p type len).value.length = len := by
  simp only [tlvAt, List.length_take, List.length_drop]
  omega

theorem saveTlInfo_ok {n tl : ℕ} {m : Mem n} (h : tl+sizeofTlInfo ≤ n) :
    snsdSaveTlInfo type len m tl = .ok (m.write tl (type :: beBytes16 len)) := by
  rw [snsdSaveTlInfo, leBytes16_htons]
  exact Mem.store_ok h

/-- A header saved at `tl` and a value copied behind it are one stored item. -/
theorem save_memcpy_ok (type : UInt8) {n : ℕ} (m : Mem n) (tl : ℕ) (hp : p.off+len ≤ p.mem.length)
    (h : tl+(sizeofTlInfo+len) ≤ n) :
    (do let a ← snsdSaveTlInfo type len m tl
        a.memcpy (tl+sizeofTlInfo) p len : Except Fault (Mem n)) =
      .ok (m.write tl (tlvAt p type len).encode) := by
  have hv : (tlvAt p type len).value.length = len := tlvAt_value_length hp
  have hs : snsdSaveTlInfo type len m tl = .ok (m.write tl (type :: beBytes16 len)) :=
    saveTlInfo_ok (by omega)
  have hc := Mem.memcpy_ok (m := m.write tl (type :: beBytes16 len)) (o := tl+sizeofTlInfo) hp
    (by omega)
  rw [hs, ok_bind, hc]
  have hw := Mem.write_append (m := m) (o := tl) (a := type :: beBytes16 len)
    (b := (tlvAt p type len).value) (by
      rw [hv, List.length_cons, beBytes16_length]
      simp only [sizeofTlInfo] at h
      omega)
  rw [List.length_cons, beBytes16_length] at hw
  rw [Tlv.encode, hv]
  exact congrArg Except.ok hw

theorem validBit_eq (type : UInt8) (h1 : 1 ≤ type.toNat) (h8 : type.toNat ≤ 8) (map : ℕ) :
    snsdSetMsgValidBit map type = map ||| 2^(type.toNat-1) := by
  have hlt : 2^(type.toNat-1) < 2^16 := Nat.pow_lt_pow_right (by decide) (by omega)
  rw [snsdSetMsgValidBit, Nat.one_shiftLeft, u16_of_lt hlt]

theorem getIp_spec {addrLen tl : ℕ} {family : ℕ → ℕ} {msg : NtMsg}
    (hp : p.off+len ≤ p.mem.length) (h : tl+(sizeofTlInfo+addrLen) ≤ 38) :
    snsdGetIp addrLen tl family p type len msg =
      .ok (if len = addrLen then { msg with
        ipTlv := msg.ipTlv.write tl (tlvAt p type len).encode
        map := snsdSetMsgValidBit msg.map type
        family := family msg.family } else msg) := by
  by_cases hl : len = addrLen
  · subst hl
    have hs := save_memcpy_ok type msg.ipTlv tl hp h
    have hi : snsdSaveTlInfo type len msg.ipTlv tl = .ok _ := saveTlInfo_ok (by omega)
    rw [hi, ok_bind] at hs
    simp only [snsdGetIp, ne_eq, not_true_eq_false, if_false, hi, ok_bind, hs, if_true]
  · simp only [snsdGetIp, ne_eq, hl, not_false_eq_true, if_true, if_false]

theorem getClientSeq_spec {msg : NtMsg} (hp : p.off+len ≤ p.mem.length) :
    snsdGetClientSeq p type len msg =
      .ok (if len = 4 then { msg with
        seqNumTlv := msg.seqNumTlv.write 0 (tlvAt p type len).encode
        map := snsdSetMsgValidBit msg.map type } else msg) := by
  by_cases hl : len = 4
  · have hi : snsdSaveTlInfo type len msg.seqNumTlv 0 = .ok _ := saveTlInfo_ok (by decide)
    have hs := save_memcpy_ok type msg.seqNumTlv 0 hp (by rw [hl]; decide)
    rw [hi, ok_bind, Nat.zero_add] at hs
    subst hl
    simp only [snsdGetClientSeq, snsdSeqNumLen, ne_eq, not_true_eq_false, if_false, hi, ok_bind, hs,
      if_true]
  · simp only [snsdGetClientSeq, snsdSeqNumLen, ne_eq, hl, not_false_eq_true, if_true, if_false]

/-- Clearing, copying to the end and swapping leaves the value in host order. -/
theorem getWord_spec {m : Mem 7} (hp : p.off+len ≤ p.mem.length) (h4 : len ≤ 4) :
    getWord p type len m = .ok (m.write 0 (wordOf (tlvAt p type len))) := by
  have hv : (tlvAt p type len).value.length = len := tlvAt_value_length hp
  let v := (tlvAt p type len).value
  let z := List.replicate (4-len) (0 : UInt8)
  have hz : z.length = 4-len := List.length_replicate
  have h0 : m.store sizeofTlInfo (List.replicate 4 0) = .ok (m.write 3 (z ++ List.replicate len 0)) := by
    rw [List.replicate_append_replicate, show 4-len+len = 4 by omega]
    exact Mem.store_ok (by decide)
  have h1 : (m.write 3 (z ++ List.replicate len 0)).memcpy (sizeofTlInfo+4-len) p len =
      .ok (m.write 3 (z ++ v)) := by
    rw [Mem.memcpy_ok hp (by simp only [sizeofTlInfo]; omega)]
    have hw := Mem.write_write_suffix (m := m) (o := 3) (a := z) (b := List.replicate len 0)
      (c := v) (by rw [List.length_replicate]; exact hv.symm)
      (by rw [hz, List.length_replicate]; omega)
    rw [hz, show 3+(4-len) = sizeofTlInfo+4-len by simp only [sizeofTlInfo]; omega] at hw
    exact congrArg Except.ok hw
  have hzv : (z ++ v).length = 4 := by
    rw [List.length_append, hz]
    change _+(tlvAt p type len).value.length = 4
    rw [hv]
    omega
  have h2 : swapInPlace (m.write 3 (z ++ v)) sizeofTlInfo 4 = .ok (m.write 3 (z ++ v).reverse) := by
    have hr : (m.write 3 (z ++ v)).read sizeofTlInfo 4 = z ++ v := by
      have := Mem.read_write (m := m) (o := 3) (s := z ++ v) (by rw [hzv])
      rwa [hzv] at this
    rw [swapInPlace, hr, Mem.store_ok (by rw [List.length_reverse, hzv]; decide)]
    have hw := Mem.write_write_suffix (m := m) (o := 3) (a := []) (b := z ++ v)
      (c := (z ++ v).reverse) List.length_reverse.symm (by rw [hzv]; decide)
    exact congrArg Except.ok hw
  have h3 : snsdSaveTlInfo type len (m.write 3 (z ++ v).reverse) 0 =
      .ok (m.write 0 (wordOf (tlvAt p type len))) := by
    rw [saveTlInfo_ok (by decide)]
    have hw := Mem.write_append_before (m := m) (o := 0) (a := type :: beBytes16 len)
      (b := (z ++ v).reverse) (by
        rw [List.length_reverse, hzv, List.length_cons, beBytes16_length])
    rw [wordOf, hv]
    exact congrArg Except.ok hw
  rw [getWord, h0, ok_bind, h1, ok_bind, h2, ok_bind, h3]

theorem getAdInfo_spec {msg : NtMsg} (hp : p.off+len ≤ p.mem.length) :
    snsdGetAdInfo p type len msg =
      .ok (if len ≤ 262 then { msg with
        adInfoTlv := swapPort (msg.adInfoTlv.write 0 (tlvAt p type len).encode)
        map := snsdSetMsgValidBit msg.map type } else msg) := by
  by_cases hl : len ≤ 262
  · have hi : snsdSaveTlInfo type len msg.adInfoTlv 0 = .ok _ := saveTlInfo_ok (by decide)
    have hs := save_memcpy_ok type msg.adInfoTlv 0 hp
      (by simp only [sizeofTlInfo]; omega)
    rw [hi, ok_bind, Nat.zero_add] at hs
    have hsw : swapInPlace (msg.adInfoTlv.write 0 (tlvAt p type len).encode) (sizeofTlInfo+4) 2 =
        .ok (swapPort (msg.adInfoTlv.write 0 (tlvAt p type len).encode)) := by
      apply Mem.store_ok
      rw [List.length_reverse, Mem.read_length]
      decide
    simp only [snsdGetAdInfo, snsdAddtionLenMax, gt_iff_lt, Nat.not_lt.mpr hl, if_false, hi, ok_bind,
      hs, hsw, hl, if_true]
  · simp only [snsdGetAdInfo, snsdAddtionLenMax, gt_iff_lt, Nat.not_le.mp hl, hl, if_true, if_false]

theorem checkMsgLen_eq (ver len : ℕ) :
    snsdCheckMsgLen ver len [(0, 1), (1, 4)] = wordLenOk ver len := by
  simp only [snsdCheckMsgLen, List.any_cons, List.any_nil, Bool.or_false, wordLenOk]

theorem wordLenOk_le {ver len : ℕ} (h : wordLenOk ver len = true) : len ≤ 4 := by
  simp only [wordLenOk, Bool.or_eq_true, Bool.and_eq_true, beq_iff_eq] at h
  omega

theorem getClientState_spec {msg : NtMsg} (hp : p.off+len ≤ p.mem.length) :
    snsdGetClientState p type len msg =
      .ok (if wordLenOk msg.ver len then { msg with
        stateTlv := msg.stateTlv.write 0 (wordOf (tlvAt p type len))
        map := snsdSetMsgValidBit msg.map type } else msg) := by
  rw [snsdGetClientState, snsdCheckStateLen, checkMsgLen_eq]
  cases hl : wordLenOk msg.ver len with
  | false => rfl
  | true =>
    simp only [Bool.not_true, Bool.false_eq_true, if_false, getWord_spec hp (wordLenOk_le hl),
      ok_bind, if_true]

theorem getNtReason_spec {msg : NtMsg} (hp : p.off+len ≤ p.mem.length) :
    snsdGetNtReason p type len msg =
      .ok (if wordLenOk msg.ver len then { msg with
        ntReasonTlv := msg.ntReasonTlv.write 0 (wordOf (tlvAt p type len))
        map := snsdSetMsgValidBit msg.map type } else msg) := by
  rw [snsdGetNtReason, snsdCheckReasonLen, checkMsgLen_eq]
  cases hl : wordLenOk msg.ver len with
  | false => rfl
  | true =>
    simp only [Bool.not_true, Bool.false_eq_true, if_false, getWord_spec hp (wordLenOk_le hl),
      ok_bind, if_true]

theorem subLenOk_unknown {ver t l : ℕ} (h : t = 0 ∨ 8 < t) : subLenOk ver t l = false := by
  match t, h with
  | 0, _ => rfl
  | n+9, _ => rfl

/-- A type without a handler has no meaning either. -/
theorem getValue_unknown {msg : NtMsg} (h : type.toNat = 0 ∨ 8 < type.toNat) :
    snsdGetValue p type len msg = .ok msg := by
  have hne : ∀ f ∈ tlvFunc, ¬(type == f.1) = true := by
    intro f hf he
    have hall : tlvFunc.map (fun f => f.1.toNat) = [1, 2, 3, 4, 5, 6, 7, 8] := rfl
    have hb : f.1.toNat ∈ tlvFunc.map (fun f => f.1.toNat) := List.mem_map_of_mem hf
    rw [hall, ← eq_of_beq he] at hb
    simp only [List.mem_cons, List.not_mem_nil, or_false] at hb
    omega
  rw [snsdGetValue, List.find?_eq_none.mpr hne]

/-- Every handler stores exactly what its sub-TLV means. -/
theorem snsdGetValue_spec (type : UInt8) (msg : NtMsg) (hp : p.off+len ≤ p.mem.length) :
    snsdGetValue p type len msg = .ok (applySub msg (tlvAt p type len)) := by
  have hv : (tlvAt p type len).value.length = len := tlvAt_value_length hp
  rw [applySub, hv, tlvAt_type]
  by_cases hk : type.toNat = 0 ∨ 8 < type.toNat
  · rw [getValue_unknown hk, subLenOk_unknown hk, if_neg Bool.false_ne_true]
  · have hbit := validBit_eq type (by omega) (by omega) msg.map
    have hcase : type = 1 ∨ type = 2 ∨ type = 3 ∨ type = 4 ∨ type = 5 ∨ type = 6 ∨ type = 7 ∨
        type = 8 := by
      simp only [← UInt8.toNat_inj]
      change type.toNat = 1 ∨ type.toNat = 2 ∨ type.toNat = 3 ∨ type.toNat = 4 ∨ type.toNat = 5 ∨
        type.toNat = 6 ∨ type.toNat = 7 ∨ type.toNat = 8
      omega
    rcases hcase with rfl | rfl | rfl | rfl | rfl | rfl | rfl | rfl
    · refine (getIp_spec hp (by decide) :
        snsdGetIp 4 0 (fun _ => AF_INET) p 1 len msg = _).trans ?_
      by_cases hl : len = 4 <;> simp [subLenOk, putSub, hl, hbit]
    · refine (getIp_spec hp (by decide) : snsdGetIp 4 7 id p 2 len msg = _).trans ?_
      by_cases hl : len = 4 <;> simp [subLenOk, putSub, hl, hbit]
    · refine (getIp_spec hp (by decide) :
        snsdGetIp 16 0 (fun _ => AF_INET6) p 3 len msg = _).trans ?_
      by_cases hl : len = 16 <;> simp [subLenOk, putSub, hl, hbit]
    · refine (getIp_spec hp (by decide) : snsdGetIp 16 19 id p 4 len msg = _).trans ?_
      by_cases hl : len = 16 <;> simp [subLenOk, putSub, hl, hbit]
    · refine (getClientSeq_spec hp : snsdGetClientSeq p 5 len msg = _).trans ?_
      by_cases hl : len = 4 <;> simp [subLenOk, putSub, hl, hbit]
    · refine (getClientState_spec hp : snsdGetClientState p 6 len msg = _).trans ?_
      by_cases hl : wordLenOk msg.ver len <;> simp [subLenOk, putSub, hl, hbit]
    · refine (getNtReason_spec hp : snsdGetNtReason p 7 len msg = _).trans ?_
      by_cases hl : wordLenOk msg.ver len <;> simp [subLenOk, putSub, hl, hbit]
    · refine (getAdInfo_spec hp : snsdGetAdInfo p 8 len msg = _).trans ?_
      by_cases hl : len ≤ 262 <;> simp [subLenOk, putSub, hl, hbit]

end Handlers

end NvmeSnsd.Server
