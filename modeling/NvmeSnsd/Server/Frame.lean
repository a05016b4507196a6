import NvmeSnsd.Server.DecodeSpec

/-! A received frame as a whole: the header check and the decoder behind it
never leave the frame. -/
namespace NvmeSnsd.Server
open Lib

/-- What an accepted header promises about the frame. -/
structure HeaderFits (frame : Bytes) (tlvLen ver : ℕ) : Prop where
  announced : tlvLen = beVal ((frame.drop (sizeofEthHdr+2)).take 2)
  pos : 0 < tlvLen
  fits : sizeofNtMsgHeader+sizeofEthHdr+tlvLen ≤ frame.length
  frame_le : frame.length ≤ snsdMaxBufferLen
  ver_le : ver ≤ snsdNtfVer

theorem HeaderFits.tlvLen_le {frame : Bytes} {tlvLen ver : ℕ} (h : HeaderFits frame tlvLen ver) :
    tlvLen ≤ snsdMaxTlvLen := by
  have h1 := h.fits
  have h2 := h.frame_le
  simp only [sizeofNtMsgHeader, sizeofEthHdr, snsdMaxBufferLen, snsdMaxTlvLen] at *
  omega

/-- The header check reads inside the frame, and accepts only what fits. -/
theorem getMsgHeader_spec (frame : Bytes) :
    ∃ r, snsdGetMsgHeader ⟨frame, 0⟩ frame.length = .ok r ∧
      ∀ tlvLen ver, r = some (tlvLen, ver) → HeaderFits frame tlvLen ver := by
  have hnone : ∀ tlvLen ver, (none : Option (ℕ × ℕ)) = some (tlvLen, ver) →
      HeaderFits frame tlvLen ver := fun _ _ h => absurd h (Option.some_ne_none _).symm
  by_cases hlen : ((frame.length : ℤ)%2^64 < (sizeofNtMsgHeader+sizeofEthHdr : ℕ) ||
      (frame.length : ℤ) > (snsdMaxBufferLen : ℕ)) = true
  · refine ⟨none, ?_, hnone⟩
    rw [snsdGetMsgHeader, if_pos hlen]
    rfl
  have hroom : 22 ≤ frame.length ∧ frame.length ≤ 1514 := by
    simp only [Bool.or_eq_true, decide_eq_true_eq, not_or, not_lt, gt_iff_lt] at hlen
    simp only [sizeofNtMsgHeader, sizeofEthHdr, snsdMaxBufferLen] at hlen
    omega
  have heth : Ptr.load ⟨frame, 0⟩ sizeofEthHdr = .ok (frame.take sizeofEthHdr) :=
    Ptr.load_ok (by simp only [sizeofEthHdr]; omega)
  have hhdr : (Ptr.add ⟨frame, 0⟩ sizeofEthHdr).load sizeofNtMsgHeader =
      .ok ((frame.drop sizeofEthHdr).take sizeofNtMsgHeader) := by
    rw [Ptr.load_ok (by simp only [Ptr.add_mem, Ptr.add_off, sizeofEthHdr, sizeofNtMsgHeader]; omega),
      Ptr.add_mem, Ptr.add_off, Nat.zero_add]
  rw [snsdGetMsgHeader, if_neg hlen, heth, ok_bind]
  split_ifs with hproto hmac
  · exact ⟨none, rfl, hnone⟩
  · exact ⟨none, rfl, hnone⟩
  rw [hhdr, ok_bind]
  simp only
  split_ifs with hver htlv
  · exact ⟨none, rfl, hnone⟩
  · exact ⟨none, rfl, hnone⟩
  have hl : 2 ≤ (frame.drop (sizeofEthHdr+2)).length := by
    rw [List.length_drop]
    simp only [sizeofEthHdr]
    omega
  have hann : ntohs (leVal ((((frame.drop sizeofEthHdr).take sizeofNtMsgHeader).drop 2).take 2)) =
      beVal ((frame.drop (sizeofEthHdr+2)).take 2) := by
    have ht : (((frame.drop sizeofEthHdr).take sizeofNtMsgHeader).drop 2).take 2 =
        (frame.drop (sizeofEthHdr+2)).take 2 := by
      rw [List.drop_take, List.take_take, List.drop_drop]
      rfl
    rw [ht]
    match hb : frame.drop (sizeofEthHdr+2), hl with
    | a :: b :: bs, _ => exact ntohs_leVal a b
  rw [hann] at htlv ⊢
  simp only [Bool.or_eq_true, decide_eq_true_eq, not_or, not_lt, gt_iff_lt] at htlv hver
  simp only [sizeofEthHdr, sizeofNtMsgHeader] at htlv
  refine ⟨_, rfl, ?_⟩
  rintro tlvLen ver h
  obtain ⟨rfl, rfl⟩ := Prod.mk.inj (Option.some.inj h)
  refine ⟨rfl, Nat.pos_of_ne_zero htlv.1, ?_, ?_, hver⟩
  · simp only [sizeofEthHdr, sizeofNtMsgHeader]
    omega
  · simp only [snsdMaxBufferLen]
    omega

/-- For every frame the header check and the decoder end without a fault: no
byte outside the frame is read, and each value lies in its root, the root in
the announced length, and that length in the frame. -/
theorem frame_decoding_in_bounds (frame : Bytes) :
    ∃ hdr, snsdGetMsgHeader ⟨frame, 0⟩ frame.length = .ok hdr ∧
      ∀ tlvLen ver, hdr = some (tlvLen, ver) →
        tlvLen = beVal ((frame.drop (sizeofEthHdr+2)).take 2) ∧
        sizeofNtMsgHeader+sizeofEthHdr+tlvLen ≤ frame.length ∧
        ∃ msgs calls, snsdDecodeNtTlv (fun msgs msg => .ok (msgs ++ [msg]))
            (Ptr.add ⟨frame, 0⟩ (sizeofNtMsgHeader+sizeofEthHdr)) tlvLen ver [] = .ok (msgs, calls) ∧
          ∀ c ∈ calls, c.Within tlvLen := by
  obtain ⟨hdr, hr, hfits⟩ := getMsgHeader_spec frame
  refine ⟨hdr, hr, ?_⟩
  intro tlvLen ver h
  have hf := hfits tlvLen ver h
  have hle := hf.tlvLen_le
  have hin := hf.fits
  rw [show snsdMaxTlvLen = 1492 from rfl] at hle
  obtain ⟨calls, hd, hc⟩ := decodeNtTlv_spec
    (Ptr.add ⟨frame, 0⟩ (sizeofNtMsgHeader+sizeofEthHdr)) tlvLen ver
    (by simp only [Ptr.add_off, Ptr.add_mem]; omega) (by omega) (foldlM_append_ok _ [])
  exact ⟨hf.announced, hin, _, calls, hd, hc⟩

end NvmeSnsd.Server
