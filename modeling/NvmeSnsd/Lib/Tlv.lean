import NvmeSnsd.Lib.Bytes

/-! A grammar of type-length-value items: one type byte, a big-endian 16-bit
length, and that many bytes of value. Items are read left to right up to the
first one that is refused or does not fit. -/
namespace NvmeSnsd.Lib

structure Tlv where
  type : UInt8
  value : Bytes
  deriving DecidableEq, Repr

namespace Tlv

def size (t : Tlv) : ℕ := 3+t.value.length

def encode (t : Tlv) : Bytes := t.type :: beBytes16 t.value.length ++ t.value

theorem encode_length (t : Tlv) : t.encode.length = t.size := by
  simp only [encode, size, List.length_append, List.length_cons, beBytes16_length]

/-- The item at the start of `b`, when its header and its value are complete. -/
def head? : Bytes → Option Tlv
  | ty :: hi :: lo :: rest =>
    if beVal [hi, lo] ≤ rest.length then some ⟨ty, rest.take (beVal [hi, lo])⟩ else none
  | _ => none

/-- The accepted items at the start of `b`. -/
def parseFuel (accept : UInt8 → Bool) : ℕ → Bytes → List Tlv
  | 0, _ => []
  | fuel+1, b =>
    match head? b with
    | some t => if accept t.type then t :: parseFuel accept fuel (b.drop t.size) else []
    | none => []

def parse (accept : UInt8 → Bool) (b : Bytes) : List Tlv := parseFuel accept b.length b

theorem head?_size {b : Bytes} {t : Tlv} (h : head? b = some t) : 3 ≤ t.size ∧ t.size ≤ b.length := by
  match b, h with
  | ty :: hi :: lo :: rest, h =>
    simp only [head?] at h
    split at h
    · obtain rfl := Option.some.inj h
      simp only [size, List.length_take, List.length_cons]
      omega
    · cases h

theorem head?_of_length_lt {b : Bytes} (h : b.length < 3) : head? b = none := by
  match b, h with
  | [], _ => rfl
  | [_], _ => rfl
  | [_, _], _ => rfl
  | _ :: _ :: _ :: _, h =>
    simp only [List.length_cons] at h
    omega

theorem head?_value_lt {b : Bytes} {t : Tlv} (h : head? b = some t) : t.value.length < 2^16 := by
  match b, h with
  | ty :: hi :: lo :: rest, h =>
    simp only [head?] at h
    split at h
    · obtain rfl := Option.some.inj h
      have hb := beVal_pair_lt hi lo
      simp only [List.length_take]
      omega
    · cases h

theorem parseFuel_stable (accept : UInt8 → Bool) :
    ∀ {f g : ℕ} {b : Bytes}, b.length ≤ f → b.length ≤ g →
      parseFuel accept f b = parseFuel accept g b := by
  intro f
  induction f with
  | zero =>
    intro g b hf _
    have hb : b = [] := List.eq_nil_of_length_eq_zero (by omega)
    subst hb
    cases g <;> rfl
  | succ f ih =>
    intro g b hf hg
    cases g with
    | zero =>
      have hb : b = [] := List.eq_nil_of_length_eq_zero (by omega)
      subst hb
      rfl
    | succ g =>
      simp only [parseFuel]
      cases hh : head? b with
      | none => rfl
      | some t =>
        have hs := head?_size hh
        have hd : (b.drop t.size).length ≤ f ∧ (b.drop t.size).length ≤ g := by
          rw [List.length_drop]
          omega
        simp only [ih hd.1 hd.2]

/-- The reading rule, free of the bound. -/
theorem parse_eq (accept : UInt8 → Bool) (b : Bytes) :
    parse accept b = match head? b with
      | some t => if accept t.type then t :: parse accept (b.drop t.size) else []
      | none => [] := by
  cases b with
  | nil => rfl
  | cons x xs =>
    rw [parse]
    simp only [List.length_cons, parseFuel]
    cases hh : head? (x :: xs) with
    | none => rfl
    | some t =>
      have hs := head?_size hh
      simp only [parse]
      have hd : ((x :: xs).drop t.size).length ≤ xs.length := by
        rw [List.length_drop, List.length_cons]
        omega
      rw [parseFuel_stable accept hd le_rfl]

theorem parse_none {accept : UInt8 → Bool} {b : Bytes} (h : head? b = none) :
    parse accept b = [] := by rw [parse_eq, h]

theorem parse_refused {accept : UInt8 → Bool} {b : Bytes} {t : Tlv} (h : head? b = some t)
    (ha : accept t.type = false) : parse accept b = [] := by
  rw [parse_eq, h]
  simp only [ha, Bool.false_eq_true, ↓reduceIte]

theorem parse_some {accept : UInt8 → Bool} {b : Bytes} {t : Tlv} (h : head? b = some t)
    (ha : accept t.type = true) : parse accept b = t :: parse accept (b.drop t.size) := by
  rw [parse_eq, h]
  simp only [ha, ↓reduceIte]

/-- Everything read is complete and disjoint: the items fit in the input together. -/
theorem parse_size_le (accept : UInt8 → Bool) (b : Bytes) :
    ((parse accept b).map size).sum ≤ b.length := by
  induction hn : b.length using Nat.strong_induction_on generalizing b with
  | _ n ih =>
    cases hh : head? b with
    | none => simp only [parse_none hh, List.map_nil, List.sum_nil, Nat.zero_le]
    | some t =>
      have hs := head?_size hh
      cases ha : accept t.type with
      | false => simp only [parse_refused hh ha, List.map_nil, List.sum_nil, Nat.zero_le]
      | true =>
        have hd : (b.drop t.size).length = b.length-t.size := List.length_drop
        have hrec := ih (b.drop t.size).length (by omega) (b.drop t.size) rfl
        simp only [parse_some hh ha, List.map_cons, List.sum_cons]
        omega

theorem head?_encode_append (t : Tlv) (h : t.value.length < 2^16) (b : Bytes) :
    head? (t.encode ++ b) = some t := by
  have hv : beVal [UInt8.ofNat (t.value.length/256%256), UInt8.ofNat (t.value.length%256)] =
      t.value.length := beVal_beBytes16 h
  simp only [encode, beBytes16, List.cons_append, List.nil_append, head?, hv, List.length_append,
    Nat.le_add_right, ↓reduceIte, List.take_left]

/-- Reading inverts writing, for every list of acceptable items. -/
theorem parse_encode (accept : UInt8 → Bool) (ts : List Tlv)
    (hs : ∀ t ∈ ts, t.value.length < 2^16) (ha : ∀ t ∈ ts, accept t.type = true) :
    parse accept (ts.flatMap encode) = ts := by
  induction ts with
  | nil => rfl
  | cons t ts ih =>
    have hh := head?_encode_append t (hs t List.mem_cons_self) (ts.flatMap encode)
    rw [List.flatMap_cons, parse_some hh (ha t List.mem_cons_self), ← encode_length,
      List.drop_left, ih (fun u hu => hs u (List.mem_cons_of_mem _ hu))
        (fun u hu => ha u (List.mem_cons_of_mem _ hu))]

end Tlv

end NvmeSnsd.Lib
