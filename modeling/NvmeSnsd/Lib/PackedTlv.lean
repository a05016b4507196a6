import NvmeSnsd.Lib.Bytes

/-! A grammar of type-length-value items whose header is one big-endian 16-bit word,
the type in its upper seven bits and the length of the value in its lower nine. A text
is read as a whole or not at all. -/
namespace NvmeSnsd.Lib

structure PackedTlv where
  type : ℕ
  value : Bytes
  deriving DecidableEq, Repr

namespace PackedTlv

/-- What the two parts of the header hold. -/
structure Fits (t : PackedTlv) : Prop where
  type : t.type < 128
  value : t.value.length < 512

def header (type len : ℕ) : Bytes := beBytes16 (type*512+len)

@[simp] theorem header_length (type len : ℕ) : (header type len).length = 2 := rfl

def encode (t : PackedTlv) : Bytes := header t.type t.value.length ++ t.value

/-- The first item, and what stands behind it. -/
def head? : Bytes → Option (PackedTlv × Bytes)
  | hi :: lo :: rest =>
    let w := beVal [hi, lo]
    if w%512 ≤ rest.length then some (⟨w/512, rest.take (w%512)⟩, rest.drop (w%512)) else none
  | _ => none

/-- The items of a text, in at most `fuel` steps. -/
def walkFuel : ℕ → Bytes → Option (List PackedTlv)
  | 0, b => if b = [] then some [] else none
  | fuel+1, b =>
    if b = [] then some [] else (head? b).bind fun r => (walkFuel fuel r.2).map (r.1 :: ·)

def walk (b : Bytes) : Option (List PackedTlv) := walkFuel b.length b

section Encode
variable {t : PackedTlv} {fuel : ℕ}

theorem encode_length (t : PackedTlv) : t.encode.length = t.value.length+2 := by
  rw [encode, List.length_append, header, beBytes16_length, Nat.add_comm]

theorem head?_encode_append (h : t.Fits) (b : Bytes) : head? (t.encode ++ b) = some (t, b) := by
  obtain ⟨htype, hvalue⟩ := h
  have hword : t.type*512+t.value.length < 2^16 := by omega
  have hlen : (t.type*512+t.value.length)%512 = t.value.length := by omega
  have hty : (t.type*512+t.value.length)/512 = t.type := by omega
  have hback := beVal_beBytes16 hword
  rw [encode, header, List.append_assoc]
  rw [beBytes16] at hback ⊢
  simp only [List.cons_append, List.nil_append, head?, hback, hlen, hty, List.length_append,
    Nat.le_add_right, if_true, List.take_left, List.drop_left]

theorem walkFuel_encode (ts : List PackedTlv) (h : ∀ t ∈ ts, t.Fits)
    (hfuel : (ts.flatMap encode).length ≤ fuel) : walkFuel fuel (ts.flatMap encode) = some ts := by
  induction ts generalizing fuel with
  | nil => cases fuel <;> rfl
  | cons t ts ih =>
    obtain ⟨ht, hts⟩ := List.forall_mem_cons.mp h
    rw [List.flatMap_cons, List.length_append, encode_length] at hfuel
    obtain ⟨fuel, rfl⟩ := Nat.exists_eq_succ_of_ne_zero (show fuel ≠ 0 by omega)
    have hne : t.encode ++ ts.flatMap encode ≠ [] := by
      intro hnil
      have hlen := congrArg List.length hnil
      rw [List.length_append, encode_length, List.length_nil] at hlen
      omega
    rw [List.flatMap_cons, walkFuel, if_neg hne, head?_encode_append ht, Option.bind_some,
      ih hts (by omega)]
    rfl

/-- Reading inverts writing. -/
theorem walk_encode (ts : List PackedTlv) (h : ∀ t ∈ ts, t.Fits) :
    walk (ts.flatMap encode) = some ts := walkFuel_encode ts h le_rfl

end Encode

end PackedTlv

end NvmeSnsd.Lib
