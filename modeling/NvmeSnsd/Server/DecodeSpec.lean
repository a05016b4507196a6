import NvmeSnsd.Server.Record
import NvmeSnsd.Server.Decode

/-! The two decoding loops agree with the grammar, and stay inside the frame. -/
namespace NvmeSnsd.Server
open Lib

section Item
variable {p : Ptr} {ty hi lo : UInt8} {tl : Bytes}

theorem getType_ok (h : p.rest = ty :: tl) : snsdGetType p = .ok ty := by
  have hl := Ptr.load_rest (p := p) Nat.one_pos (by rw [h, List.length_cons]; omega)
  rw [snsdGetType, hl, h]
  rfl

theorem getLen_ok (h : p.rest = hi :: lo :: tl) : snsdGetLen p = .ok (beVal [hi, lo]) := by
  have hl := Ptr.load_rest (p := p) Nat.two_pos
    (by rw [h, List.length_cons, List.length_cons]; omega)
  rw [snsdGetLen, hl, h, ok_bind, ← ntohs_leVal]
  rfl

/-- Three bytes ahead of `p` are a type and a length. -/
theorem header_at {m : ℕ} (h3 : 3 ≤ m) (hm : m ≤ p.rest.length) :
    ∃ ty hi lo tl, p.rest = ty :: hi :: lo :: tl ∧ snsdGetType p = .ok ty ∧
      snsdGetLen (p.add 1) = .ok (beVal [hi, lo]) ∧ (p.add 3).rest = tl := by
  match hr : p.rest, hm with
  | ty :: hi :: lo :: tl, _ =>
    exact ⟨ty, hi, lo, tl, rfl, getType_ok hr,
      getLen_ok (by rw [Ptr.add_rest, hr]; rfl), by rw [Ptr.add_rest, hr]; rfl⟩
  | [], hm | [_], hm | [_, _], hm =>
    simp only [List.length_cons, List.length_nil] at hm
    omega

/-- The item at `p` when `m` bytes may be read. -/
theorem head?_rest {m : ℕ} (hr : p.rest = ty :: hi :: lo :: tl) (h3 : 3 ≤ m) (hm : m ≤ p.rest.length) :
    Tlv.head? (p.rest.take m) =
      if 3+beVal [hi, lo] ≤ m then some (tlvAt (p.add 3) ty (beVal [hi, lo])) else none := by
  obtain ⟨k, rfl⟩ : ∃ k, m = k+3 := ⟨m-3, by omega⟩
  have htl : (p.add 3).mem.drop (p.add 3).off = tl := by
    have h := Ptr.add_rest p 3
    rw [hr] at h
    exact h
  rw [hr, List.length_cons, List.length_cons, List.length_cons] at hm
  have hlen : (tl.take k).length = k := by
    rw [List.length_take]
    omega
  simp only [hr, List.take_succ_cons, Tlv.head?, hlen, tlvAt, htl]
  by_cases hb : beVal [hi, lo] ≤ k
  · rw [if_pos hb, if_pos (by omega), List.take_take, Nat.min_eq_left hb]
  · rw [if_neg hb, if_neg (by omega)]

end Item

/-- The value lies inside the value of its root, which lies inside the first
`limit` bytes. -/
def ValueCall.Within (limit : ℕ) (c : ValueCall) : Prop :=
  c.rootPos ≤ c.pos ∧ c.pos+c.len ≤ c.rootPos+c.rootLen ∧ c.rootPos+c.rootLen ≤ limit

/-- What the sub-TLV loop keeps: the two counters differ by the start of the
root value, and what is still unread completes the record. -/
structure SubInv (buf : Ptr) (rootPos rootLen limit : ℕ) (final : NtMsg) (s : SubState) : Prop where
  counters : s.subPos = rootPos+s.subTlvLen
  bounded : s.subTlvLen ≤ rootLen
  unread : (Tlv.parse (fun _ => true)
    ((buf.add s.subPos).rest.take (rootLen-s.subTlvLen))).foldl applySub s.msg = final
  calls : ∀ c ∈ s.calls, c.Within limit

structure SubPost (limit : ℕ) (final : NtMsg) (s : SubState) : Prop where
  msg : s.msg = final
  calls : ∀ c ∈ s.calls, c.Within limit

section Sub
variable {buf : Ptr} {rootPos rootLen limit : ℕ} {final : NtMsg}

theorem SubInv.done {s : SubState} (hI : SubInv buf rootPos rootLen limit final s)
    (hh : Tlv.head? ((buf.add s.subPos).rest.take (rootLen-s.subTlvLen)) = none) :
    SubPost limit final s := by
  refine ⟨?_, hI.calls⟩
  have h := hI.unread
  rw [Tlv.parse_none hh] at h
  exact h

theorem subBody_meets (hroom : rootPos+rootLen ≤ limit) (hbuf : buf.off+limit ≤ buf.mem.length)
    (hlim : limit ≤ 2^31) {s : SubState} (hI : SubInv buf rootPos rootLen limit final s) :
    BodyMeets (SubInv buf rootPos rootLen limit final) (SubPost limit final)
      (fun s => rootLen-s.subTlvLen) s (subBody buf rootPos rootLen s) := by
  obtain ⟨k, pos, msg, calls⟩ := s
  obtain ⟨hpos, hk, hunread, hcalls⟩ := id hI
  simp only at hpos hk hunread hcalls
  subst hpos
  obtain ⟨p, hp⟩ : ∃ p, buf.add (rootPos+k) = p := ⟨_, rfl⟩
  have hp1 : buf.add (rootPos+k+1) = p.add 1 := by rw [← hp, Ptr.add_add]
  have hp3 : buf.add (rootPos+k+3) = p.add 3 := by rw [← hp, Ptr.add_add]
  have hrest : rootLen-k ≤ p.rest.length := by
    rw [Ptr.rest_length, ← hp, Ptr.add_mem, Ptr.add_off]
    omega
  have hu1 : u32 (k+snsdTlvTagSize) = k+1 := u32_of_lt (by simp only [snsdTlvTagSize]; omega)
  have hu2 : u32 (k+1+snsdTlvTagSize) = k+2 := u32_of_lt (by simp only [snsdTlvTagSize]; omega)
  have hu3 : u32 (k+1+snsdTlvLenSize) = k+3 := u32_of_lt (by simp only [snsdTlvLenSize]; omega)
  have hv1 : u32 (rootPos+k+snsdTlvTagSize) = rootPos+k+1 :=
    u32_of_lt (by simp only [snsdTlvTagSize]; omega)
  have hv3 : u32 (rootPos+k+1+snsdTlvLenSize) = rootPos+k+3 :=
    u32_of_lt (by simp only [snsdTlvLenSize]; omega)
  have hshort (h : rootLen < k+3) :
      SubPost limit final ⟨k, rootPos+k, msg, calls⟩ := hI.done (Tlv.head?_of_length_lt (by
    rw [List.length_take]
    simp only
    omega))
  by_cases h2 : rootLen < k+2
  · refine Or.inl ⟨_, ?_, hshort (by omega)⟩
    simp only [subBody, hu1, hu2, gt_iff_lt, h2, if_true]
    rfl
  by_cases h3 : rootLen < k+3
  · -- the type is read before its length is found missing
    obtain ⟨ty, tl, hr⟩ : ∃ ty tl, p.rest = ty :: tl :=
      List.exists_cons_of_length_pos (by omega)
    refine Or.inl ⟨_, ?_, hshort h3⟩
    simp only [subBody, hu1, hu2, hu3, gt_iff_lt, h2, h3, if_true, if_false, hp, getType_ok hr,
      ok_bind]
    rfl
  obtain ⟨ty, hi, lo, tl, hr, hty, hlen, htl⟩ := header_at (p := p) (m := rootLen-k) (by omega) hrest
  obtain ⟨n, hn⟩ : ∃ n, beVal [hi, lo] = n := ⟨_, rfl⟩
  have hn16 := beVal_pair_lt hi lo
  have hhead := head?_rest hr (by omega) hrest
  rw [hn] at hlen hn16 hhead
  have hu4 : u32 (k+3+n) = k+3+n := u32_of_lt (by omega)
  by_cases h4 : rootLen < k+3+n
  · refine Or.inl ⟨_, ?_, hI.done (by rw [hp, hhead, if_neg (by omega)])⟩
    simp only [subBody, hu1, hu2, hu3, gt_iff_lt, h2, h3, if_true, if_false, hp, hty, ok_bind, hv1,
      hp1, hlen, hu4, h4]
    rfl
  · have hv4 : u32 (rootPos+k+3+n) = rootPos+k+3+n := u32_of_lt (by omega)
    have hin : (p.add 3).off+n ≤ (p.add 3).mem.length := by
      rw [← hp3, Ptr.add_mem, Ptr.add_off]
      omega
    have hval := snsdGetValue_spec ty msg hin
    have hsize : (tlvAt (p.add 3) ty n).size = 3+n := by rw [Tlv.size, tlvAt_value_length hin]
    rw [if_pos (by omega)] at hhead
    refine Or.inr ⟨⟨k+3+n, rootPos+k+3+n, applySub msg (tlvAt (p.add 3) ty n),
      calls ++ [⟨rootPos, rootLen, rootPos+k+3, n⟩]⟩, ?_, ⟨?_, ?_, ?_, ?_⟩, ?_⟩
    · simp only [subBody, hu1, hu2, hu3, gt_iff_lt, h2, h3, if_false, hp, hty, ok_bind, hv1,
        hp1, hlen, hu4, h4, hv3, hp3, hval, hv4, Nat.not_lt.mp h4, if_true]
      rfl
    · simp only
      omega
    · simp only
      omega
    · rw [hp, Tlv.parse_some hhead rfl, hsize, List.foldl_cons, List.drop_take] at hunread
      rw [← hunread]
      simp only
      rw [show rootPos+k+3+n = rootPos+k+(3+n) by omega, ← Ptr.add_add, hp, Ptr.add_rest,
        show rootLen-k-(3+n) = rootLen-(k+3+n) by omega]
    · intro c hc
      rcases List.mem_append.mp hc with hc | hc
      · exact hcalls c hc
      · obtain rfl := List.mem_singleton.mp hc
        exact ⟨by simp only; omega, by simp only; omega, hroom⟩
    · simp only
      omega

/-- The record made by one root value, and where its handlers read. -/
theorem decodeSubTlv_spec (rootPos rootLen limit : ℕ) (hroom : rootPos+rootLen ≤ limit)
    (hbuf : buf.off+limit ≤ buf.mem.length) (hlim : limit ≤ 2^31) (msg : NtMsg)
    {calls : List ValueCall} (hcalls : ∀ c ∈ calls, c.Within limit) :
    ∃ calls', snsdDecodeSubTlv buf rootPos rootLen msg calls =
        .ok ((Tlv.parse (fun _ => true) ((buf.add rootPos).rest.take rootLen)).foldl applySub msg,
          calls') ∧ ∀ c ∈ calls', c.Within limit := by
  have hu : u32 (0+rootPos) = rootPos := by
    rw [Nat.zero_add]
    exact u32_of_lt (by omega)
  have hI : SubInv buf rootPos rootLen limit
      ((Tlv.parse (fun _ => true) ((buf.add rootPos).rest.take rootLen)).foldl applySub msg)
      ⟨0, rootPos, msg, calls⟩ := ⟨rfl, Nat.zero_le _, rfl, hcalls⟩
  obtain ⟨s, hs, hmsg, hc⟩ := loop_total (fun s : SubState => rootLen-s.subTlvLen)
    (fun s hs => subBody_meets hroom hbuf hlim hs) (rootLen+1) hI (by simp only; omega)
  refine ⟨s.calls, ?_, hc⟩
  rw [snsdDecodeSubTlv, hu, hs, ok_bind, hmsg]
  rfl

end Sub

theorem grammarMsgs_none {ver : ℕ} {b : Bytes} (h : Tlv.head? b = none) : grammarMsgs ver b = [] := by
  rw [grammarMsgs, rootTlvs, Tlv.parse_none h, List.map_nil]

theorem grammarMsgs_refused {ver : ℕ} {b : Bytes} {t : Tlv} (h : Tlv.head? b = some t)
    (ht : isNotifyRoot t.type = false) : grammarMsgs ver b = [] := by
  rw [grammarMsgs, rootTlvs, Tlv.parse_refused h ht, List.map_nil]

theorem grammarMsgs_some {ver : ℕ} {b : Bytes} {t : Tlv} (h : Tlv.head? b = some t)
    (ht : isNotifyRoot t.type = true) :
    grammarMsgs ver b = recordOf ver (subTlvs t) :: grammarMsgs ver (b.drop t.size) := by
  rw [grammarMsgs, rootTlvs, Tlv.parse_some h ht, List.map_cons]
  rfl

theorem root_refused_iff (ty : UInt8) :
    (decide (ty &&& snsdTlvFormatStruct = 0) || decide (ty &&& snsdMsgNotifyMask ≠ snsdMsgNotifyType)) =
      !isNotifyRoot ty := by
  simp only [isNotifyRoot, ne_eq, decide_not, Bool.not_and, Bool.not_not]

section Root
variable {σ : Type} {deal : σ → NtMsg → Except Fault σ} {buf : Ptr} {len ver : ℕ} {final : σ}

/-- What the root loop keeps: dealing with the records still unread gives the
final state. -/
structure RootInv (deal : σ → NtMsg → Except Fault σ) (buf : Ptr) (len ver : ℕ) (final : σ)
    (s : RootState σ) : Prop where
  bounded : s.rootPos ≤ len
  unread : (grammarMsgs ver ((buf.add s.rootPos).rest.take (len-s.rootPos))).foldlM deal s.acc =
    .ok final
  calls : ∀ c ∈ s.calls, c.Within len

structure RootPost (len : ℕ) (final : σ) (s : RootState σ) : Prop where
  acc : s.acc = final
  calls : ∀ c ∈ s.calls, c.Within len

theorem RootInv.done {s : RootState σ} (hI : RootInv deal buf len ver final s)
    (hg : grammarMsgs ver ((buf.add s.rootPos).rest.take (len-s.rootPos)) = []) :
    RootPost len final s := by
  refine ⟨?_, hI.calls⟩
  have h := hI.unread
  rw [hg] at h
  exact Except.ok.inj h

theorem rootBody_meets (hbuf : buf.off+len ≤ buf.mem.length) (hlen : len < 2^31)
    {s : RootState σ} (hI : RootInv deal buf len ver final s) :
    BodyMeets (RootInv deal buf len ver final) (RootPost len final)
      (fun s => len-s.rootPos) s (rootBody deal buf len ver s) := by
  obtain ⟨k, acc, calls⟩ := s
  obtain ⟨hk, hunread, hcalls⟩ := id hI
  simp only at hk hunread hcalls
  obtain ⟨p, hp⟩ : ∃ p, buf.add k = p := ⟨_, rfl⟩
  have hp1 : buf.add (k+1) = p.add 1 := by rw [← hp, Ptr.add_add]
  have hp3 : buf.add (k+3) = p.add 3 := by rw [← hp, Ptr.add_add]
  have hrest : len-k ≤ p.rest.length := by
    rw [Ptr.rest_length, ← hp, Ptr.add_mem, Ptr.add_off]
    omega
  have hu1 : u32 (k+snsdTlvTagSize) = k+1 := u32_of_lt (by simp only [snsdTlvTagSize]; omega)
  have hu3 : u32 (k+1+snsdTlvLenSize) = k+3 := u32_of_lt (by simp only [snsdTlvLenSize]; omega)
  have hshort (h : len < k+3) : RootPost len final ⟨k, acc, calls⟩ :=
    hI.done (grammarMsgs_none (Tlv.head?_of_length_lt (by
      rw [List.length_take]
      simp only
      omega)))
  by_cases h1 : len < k+1
  · refine Or.inl ⟨_, ?_, hshort (by omega)⟩
    simp only [rootBody, hu1, gt_iff_lt, h1, if_true]
    rfl
  by_cases h3 : len < k+3
  · obtain ⟨ty, tl, hr⟩ : ∃ ty tl, p.rest = ty :: tl := List.exists_cons_of_length_pos (by omega)
    refine Or.inl ⟨_, ?_, hshort h3⟩
    simp only [rootBody, hu1, hu3, gt_iff_lt, h1, h3, if_true, if_false, hp, getType_ok hr, ok_bind]
    split <;> rfl
  obtain ⟨ty, hi, lo, tl, hr, hty, hl, htl⟩ := header_at (p := p) (m := len-k) (by omega) hrest
  obtain ⟨n, hn⟩ : ∃ n, beVal [hi, lo] = n := ⟨_, rfl⟩
  have hn16 := beVal_pair_lt hi lo
  have hhead := head?_rest hr (by omega) hrest
  rw [hn] at hl hn16 hhead
  have hu4 : u32 (k+3+n) = k+3+n := u32_of_lt (by omega)
  cases hroot : isNotifyRoot ty with
  | false =>
    refine Or.inl ⟨_, ?_, hI.done ?_⟩
    · simp only [rootBody, hu1, gt_iff_lt, h1, if_false, hp, hty, ok_bind, root_refused_iff, hroot,
        Bool.not_false, if_true]
      rfl
    · rw [hp]
      split at hhead
      · exact grammarMsgs_refused hhead hroot
      · exact grammarMsgs_none hhead
  | true =>
    by_cases h4 : len < k+3+n
    · refine Or.inl ⟨_, ?_, hI.done (grammarMsgs_none (by rw [hp, hhead, if_neg (by omega)]))⟩
      simp only [rootBody, hu1, hu3, gt_iff_lt, h1, h3, if_false, hp, hty, ok_bind, root_refused_iff,
        hroot, Bool.not_true, Bool.false_eq_true, hp1, hl, hu4, h4, if_true]
      rfl
    · have hin : (p.add 3).off+n ≤ (p.add 3).mem.length := by
        rw [← hp3, Ptr.add_mem, Ptr.add_off]
        omega
      rw [if_pos (by omega)] at hhead
      have hsize : (tlvAt (p.add 3) ty n).size = 3+n := by rw [Tlv.size, tlvAt_value_length hin]
      rw [hp, grammarMsgs_some hhead hroot, hsize, List.foldlM_cons, bind_eq_ok] at hunread
      obtain ⟨acc', hdeal, hunread⟩ := hunread
      obtain ⟨calls', hsub, hcalls'⟩ := decodeSubTlv_spec (k+3) n len (by omega)
        hbuf (by omega) (NtMsg.init ver) hcalls
      rw [hp3] at hsub
      refine Or.inr ⟨⟨k+3+n, acc', calls'⟩, ?_, ⟨?_, ?_, hcalls'⟩, ?_⟩
      · simp only [rootBody, hu1, hu3, gt_iff_lt, h1, h3, if_false, hp, hty, ok_bind,
          root_refused_iff, hroot, Bool.not_true, Bool.false_eq_true, hp1, hl, hu4, h4, hsub]
        change (do
          let acc'' ← deal acc (recordOf ver (subTlvs (tlvAt (p.add 3) ty n)))
          _) = _
        rw [hdeal, ok_bind]
        simp only [Nat.not_lt.mp h4, if_true]
        rfl
      · simp only
        omega
      · simp only
        rw [show k+3+n = k+(3+n) by omega, ← Ptr.add_add, hp, Ptr.add_rest,
          show len-(k+(3+n)) = len-k-(3+n) by omega, ← List.drop_take]
        exact hunread
      · simp only
        omega

/-- Decoding deals with the records of the grammar, one after the other. -/
theorem decodeNtTlv_spec (buf : Ptr) (len ver : ℕ) (hbuf : buf.off+len ≤ buf.mem.length) (hlen : len < 2^31) {acc : σ}
    (h : (grammarMsgs ver (buf.rest.take len)).foldlM deal acc = .ok final) :
    ∃ calls, snsdDecodeNtTlv deal buf len ver acc = .ok (final, calls) ∧
      ∀ c ∈ calls, c.Within len := by
  have hI : RootInv deal buf len ver final ⟨0, acc, []⟩ :=
    ⟨Nat.zero_le _, h, fun _ hc => absurd hc List.not_mem_nil⟩
  obtain ⟨s, hs, hacc, hc⟩ := loop_total (fun s : RootState σ => len-s.rootPos)
    (fun s hs => rootBody_meets hbuf hlen hs) (len+1) hI (by simp only; omega)
  refine ⟨s.calls, ?_, hc⟩
  rw [snsdDecodeNtTlv, hs, ok_bind, hacc]
  rfl

end Root

theorem foldlM_append_ok {α : Type} (l acc : List α) :
    l.foldlM (fun acc a => (.ok (acc ++ [a]) : Except Fault (List α))) acc = .ok (acc ++ l) := by
  induction l generalizing acc with
  | nil => rw [List.foldlM_nil, List.append_nil]; rfl
  | cons a l ih => rw [List.foldlM_cons, ok_bind, ih, List.append_assoc, List.singleton_append]

theorem dealtMsgs_eq (buf : Ptr) {len ver : ℕ} (hbuf : buf.off+len ≤ buf.mem.length)
    (hlen : len < 2^31) : dealtMsgs buf len ver = .ok (grammarMsgs ver (buf.rest.take len)) := by
  obtain ⟨calls, h, _⟩ := decodeNtTlv_spec buf len ver hbuf hlen
    (foldlM_append_ok (grammarMsgs ver (buf.rest.take len)) [])
  rw [dealtMsgs, h]
  rfl

end NvmeSnsd.Server
