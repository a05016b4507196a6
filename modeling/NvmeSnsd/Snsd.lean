import NvmeSnsd.Lib.Bytes

/-! What the server, the connection layer and the pollers share. -/
namespace NvmeSnsd
open Lib

def AF_INET : ℕ := 2
def AF_INET6 : ℕ := 10
def ipv4AddrLength : ℕ := 4
def ipv6AddrLength : ℕ := 16

/-! `enum SNSD_PROTOCOL_E` -/
def SNSD_PROTOCOL_ROCE : ℕ := 1
def SNSD_PROTOCOL_TCP : ℕ := 2
def SNSD_PROTOCOL_ISCSI : ℕ := 3

/-- Addresses of a family that is neither never match. -/
def snsdIpMatch (family : ℕ) (ip1 ip2 : Bytes) : Bool :=
  (family == AF_INET && ip1.take ipv4AddrLength == ip2.take ipv4AddrLength) ||
    (family == AF_INET6 && ip1.take ipv6AddrLength == ip2.take ipv6AddrLength)

theorem snsdIpMatch_symm {family : ℕ} {x y : Bytes} (h : snsdIpMatch family x y = true) :
    snsdIpMatch family y x = true := by
  simp only [snsdIpMatch, Bool.or_eq_true, Bool.and_eq_true, beq_iff_eq] at h ⊢
  rcases h with ⟨hf, h⟩ | ⟨hf, h⟩
  · exact Or.inl ⟨hf, h.symm⟩
  · exact Or.inr ⟨hf, h.symm⟩

theorem snsdIpMatch_trans {family : ℕ} {x y z : Bytes} (h : snsdIpMatch family x y = true)
    (h' : snsdIpMatch family y z = true) : snsdIpMatch family x z = true := by
  simp only [snsdIpMatch, Bool.or_eq_true, Bool.and_eq_true, beq_iff_eq] at h h' ⊢
  rcases h with ⟨hf, h⟩ | ⟨hf, h⟩
  · rcases h' with ⟨-, h'⟩ | ⟨hf', -⟩
    · exact Or.inl ⟨hf, h.trans h'⟩
    · exact absurd (hf.symm.trans hf') (by decide)
  · rcases h' with ⟨hf', -⟩ | ⟨-, h'⟩
    · exact absurd (hf.symm.trans hf') (by decide)
    · exact Or.inr ⟨hf, h.trans h'⟩

end NvmeSnsd
