import Mathlib.Tactic
import Mathlib.Data.List.Basic

/-! Byte memory with checked accesses. A pointer carries the object it points
into, so a read or a write outside that object is a fault and never a value. -/
namespace NvmeSnsd.Lib

abbrev Bytes := List UInt8

/-- Why an execution has no result. -/
inductive Fault
  | load (off len size : ℕ)
  | store (off len size : ℕ)
  | fuel
  deriving DecidableEq, Repr

@[simp] theorem ok_bind {ε α β : Type} (a : α) (f : α → Except ε β) :
    (Except.ok a >>= f) = f a := rfl

theorem ok_of_toOption {ε α : Type} {x : Except ε α} {a : α} (h : x.toOption = some a) :
    x = .ok a := by
  cases x with
  | error e => cases h
  | ok b => rw [Option.some.inj h]

/-- A sequence that ends well had a first step that ended well. -/
theorem bind_eq_ok {ε α β : Type} {x : Except ε α} {f : α → Except ε β} {b : β} :
    (x >>= f) = .ok b ↔ ∃ a, x = .ok a ∧ f a = .ok b := by
  cases x with
  | error e =>
    constructor
    · intro h
      cases h
    · rintro ⟨_, h, _⟩
      cases h
  | ok a =>
    constructor
    · exact fun h => ⟨a, rfl, h⟩
    · rintro ⟨_, h, hf⟩
      cases h
      exact hf

/-- `base + off`, where `base` is the start of the object `mem`. -/
structure Ptr where
  mem : Bytes
  off : ℕ
  deriving DecidableEq, Repr

def Ptr.add (p : Ptr) (k : ℕ) : Ptr := { p with off := p.off+k }

/-- The `n` bytes at `p`. -/
def Ptr.load (p : Ptr) (n : ℕ) : Except Fault Bytes :=
  if p.off+n ≤ p.mem.length then .ok ((p.mem.drop p.off).take n)
  else .error (.load p.off n p.mem.length)

/-- What lies between `p` and the end of its object. -/
def Ptr.rest (p : Ptr) : Bytes := p.mem.drop p.off

theorem Ptr.rest_length (p : Ptr) : p.rest.length = p.mem.length-p.off := List.length_drop

theorem Ptr.add_rest (p : Ptr) (k : ℕ) : (p.add k).rest = p.rest.drop k := by
  simp only [rest, add, List.drop_drop]

theorem Ptr.load_ok {p : Ptr} {n : ℕ} (h : p.off+n ≤ p.mem.length) :
    p.load n = .ok ((p.mem.drop p.off).take n) := if_pos h

theorem Ptr.add_add (p : Ptr) (a b : ℕ) : (p.add a).add b = p.add (a+b) := by
  simp only [add, Nat.add_assoc]

theorem Ptr.load_rest {p : Ptr} {n : ℕ} (h0 : 0 < n) (h : n ≤ p.rest.length) :
    p.load n = .ok (p.rest.take n) := by
  rw [Ptr.rest_length] at h
  exact Ptr.load_ok (by omega)

@[simp] theorem Ptr.add_mem (p : Ptr) (k : ℕ) : (p.add k).mem = p.mem := rfl

@[simp] theorem Ptr.add_off (p : Ptr) (k : ℕ) : (p.add k).off = p.off+k := rfl

/-- An object of `n` bytes. -/
structure Mem (n : ℕ) where
  bytes : Bytes
  size : bytes.length = n
  deriving DecidableEq

namespace Mem
variable {n : ℕ}

/-- `memset(p, 0, n)` -/
def zero (n : ℕ) : Mem n := ⟨List.replicate n 0, List.length_replicate⟩

def read (m : Mem n) (off len : ℕ) : Bytes := (m.bytes.drop off).take len

/-- The object after `src` is written at `off`; a range that does not fit
leaves it alone (`store` reports that case). -/
def write (m : Mem n) (off : ℕ) (src : Bytes) : Mem n :=
  if h : off+src.length ≤ n then
    ⟨m.bytes.take off ++ src ++ m.bytes.drop (off+src.length), by
      have hs := m.size
      simp only [List.length_append, List.length_take, List.length_drop]
      omega⟩
  else m

def store (m : Mem n) (off : ℕ) (src : Bytes) : Except Fault (Mem n) :=
  if off+src.length ≤ n then .ok (m.write off src) else .error (.store off src.length n)

/-- `memcpy(m + off, p, len)` -/
def memcpy (m : Mem n) (off : ℕ) (p : Ptr) (len : ℕ) : Except Fault (Mem n) := do
  m.store off (← p.load len)

@[ext] theorem ext {a b : Mem n} (h : a.bytes = b.bytes) : a = b := by
  cases a; cases b; cases h; rfl

theorem store_ok {m : Mem n} {o : ℕ} {s : Bytes} (h : o+s.length ≤ n) :
    m.store o s = .ok (m.write o s) := if_pos h

theorem memcpy_ok {m : Mem n} {o len : ℕ} {p : Ptr} (hp : p.off+len ≤ p.mem.length)
    (hm : o+len ≤ n) :
    m.memcpy o p len = .ok (m.write o ((p.mem.drop p.off).take len)) := by
  have hl : ((p.mem.drop p.off).take len).length = len := by
    simp only [List.length_take, List.length_drop]
    omega
  rw [memcpy, Ptr.load_ok hp]
  exact store_ok (by rw [hl]; exact hm)

theorem write_bytes {m : Mem n} {o : ℕ} {s : Bytes} (h : o+s.length ≤ n) :
    (m.write o s).bytes = m.bytes.take o ++ s ++ m.bytes.drop (o+s.length) := by
  rw [write, dif_pos h]

@[simp] theorem read_length (m : Mem n) (o len : ℕ) :
    (m.read o len).length = min len (n-o) := by
  simp only [read, List.length_take, List.length_drop, m.size]

theorem read_zero (o len : ℕ) (h : o+len ≤ n) :
    (zero n).read o len = List.replicate len 0 := by
  simp only [read, zero, List.drop_replicate, List.take_replicate]
  congr 1
  omega

/-- A range reads back what was just written to it. -/
theorem read_write {m : Mem n} {o : ℕ} {s : Bytes} (h : o+s.length ≤ n) :
    (m.write o s).read o s.length = s := by
  have hs := m.size
  have ht : (m.bytes.take o).length = o := by
    rw [List.length_take]
    omega
  rw [read, write_bytes h, List.append_assoc]
  nth_rewrite 1 [← ht]
  rw [List.drop_left, List.take_left]

/-- A write keeps every range that ends before it. -/
theorem read_write_before {m : Mem n} {o : ℕ} {s : Bytes} {k len : ℕ}
    (hk : k+len ≤ o) : (m.write o s).read k len = m.read k len := by
  by_cases h : o+s.length ≤ n
  · have hs := m.size
    have ht : (m.bytes.take o).length = o := by
      rw [List.length_take]
      omega
    rw [read, write_bytes h, List.append_assoc, List.drop_append_of_le_length (by omega),
      List.take_append_of_le_length (by rw [List.length_drop]; omega),
      List.drop_take, List.take_take, Nat.min_eq_left (by omega), read]
  · rw [write, dif_neg h]

/-- A write keeps every range that starts after it. -/
theorem read_write_after {m : Mem n} {o : ℕ} {s : Bytes} {k len : ℕ}
    (hk : o+s.length ≤ k) : (m.write o s).read k len = m.read k len := by
  by_cases h : o+s.length ≤ n
  · have hs := m.size
    have ht : (m.bytes.take o ++ s).length = o+s.length := by
      rw [List.length_append, List.length_take]
      omega
    rw [read, write_bytes h, read]
    congr 1
    rw [List.drop_append, List.drop_eq_nil_of_le (by omega), List.nil_append, List.drop_drop, ht]
    congr 1
    omega
  · rw [write, dif_neg h]

theorem getElem?_write {m : Mem n} {o : ℕ} {s : Bytes} (h : o+s.length ≤ n) (i : ℕ) :
    (m.write o s).bytes[i]? =
      if o ≤ i ∧ i < o+s.length then s[i-o]? else m.bytes[i]? := by
  have hs := m.size
  have ht : (m.bytes.take o).length = o := by
    rw [List.length_take]
    omega
  rw [write_bytes h, List.append_assoc, List.getElem?_append, ht]
  split_ifs with h1 h2 h2
  · omega
  · exact List.getElem?_take_of_lt h1
  · rw [List.getElem?_append_left (by omega)]
  · rw [List.getElem?_append_right (by omega), List.getElem?_drop]
    congr 1
    omega

/-- Writing a part and then the part after it is one write. -/
theorem write_append {m : Mem n} {o : ℕ} {a b : Bytes} (h : o+(a.length+b.length) ≤ n) :
    (m.write o a).write (o+a.length) b = m.write o (a ++ b) := by
  apply Mem.ext
  apply List.ext_getElem?
  intro i
  rw [getElem?_write (by omega), getElem?_write (by omega),
    getElem?_write (by rw [List.length_append]; omega), List.length_append, List.getElem?_append]
  grind

/-- The same where the second place is given as a sum. -/
theorem write_next {m : Mem n} {o k : ℕ} {a b : Bytes} (hk : k = o+a.length)
    (h : o+(a.length+b.length) ≤ n) : (m.write o a).write k b = m.write o (a ++ b) := by
  rw [hk, write_append h]

/-- Writing a part and then the part before it is one write. -/
theorem write_append_before {m : Mem n} {o : ℕ} {a b : Bytes}
    (h : o+(a.length+b.length) ≤ n) :
    (m.write (o+a.length) b).write o a = m.write o (a ++ b) := by
  apply Mem.ext
  apply List.ext_getElem?
  intro i
  rw [getElem?_write (by omega), getElem?_write (by omega),
    getElem?_write (by rw [List.length_append]; omega), List.length_append, List.getElem?_append]
  grind

/-- A write over the end of an earlier one. -/
theorem write_write_suffix {m : Mem n} {o : ℕ} {a b c : Bytes}
    (hbc : b.length = c.length) (h : o+(a.length+b.length) ≤ n) :
    (m.write o (a ++ b)).write (o+a.length) c = m.write o (a ++ c) := by
  apply Mem.ext
  apply List.ext_getElem?
  intro i
  rw [getElem?_write (by omega), getElem?_write (by rw [List.length_append]; omega),
    getElem?_write (by rw [List.length_append]; omega), List.length_append, List.length_append,
    List.getElem?_append, List.getElem?_append]
  grind

/-- A write inside an earlier one. -/
theorem write_write_mid {m : Mem n} {o : ℕ} {a b c z : Bytes} (hbc : b.length = c.length)
    (h : o+(a.length+b.length+z.length) ≤ n) :
    (m.write o (a ++ (b ++ z))).write (o+a.length) c = m.write o (a ++ (c ++ z)) := by
  apply Mem.ext
  apply List.ext_getElem?
  intro i
  rw [getElem?_write (by omega), getElem?_write (by simp only [List.length_append]; omega),
    getElem?_write (by simp only [List.length_append]; omega)]
  simp only [List.length_append, List.getElem?_append]
  grind

/-- A write over zeros, `g` of them behind what is there already. -/
theorem write_fill {m : Mem n} {o off g len k : ℕ} {a s : Bytes} (hoff : off = o+(a.length+g))
    (hlen : len = g+(s.length+k)) (h : o+(a.length+len) ≤ n) :
    (m.write o (a ++ List.replicate len 0)).write off s =
      m.write o (a ++ List.replicate g 0 ++ s ++ List.replicate k 0) := by
  subst hoff hlen
  have hgap : (a ++ List.replicate g (0 : UInt8)).length = a.length+g := by
    rw [List.length_append, List.length_replicate]
  rw [List.replicate_add, List.replicate_add, ← List.append_assoc, ← hgap,
    write_write_mid List.length_replicate]
  · simp only [List.append_assoc]
  · simp only [List.length_append, List.length_replicate]
    omega

/-- The whole of an object is copied. -/
theorem memcpy_all {m : Mem n} {o : ℕ} {s : Bytes} (h : o+s.length ≤ n) :
    m.memcpy o ⟨s, 0⟩ s.length = .ok (m.write o s) := by
  have hp : (⟨s, 0⟩ : Ptr).off+s.length ≤ (⟨s, 0⟩ : Ptr).mem.length := by
    rw [Nat.zero_add]
  rw [memcpy_ok hp h, List.drop_zero, List.take_length]

/-- Adjacent ranges read as one. -/
theorem read_append (m : Mem n) (o a b : ℕ) :
    m.read o (a+b) = m.read o a ++ m.read (o+a) b := by
  rw [read, read, read, List.take_add, List.drop_drop]

/-- A range inside a range. -/
theorem read_sub (m : Mem n) {o l i j : ℕ} (h : i+j ≤ l) :
    m.read (o+i) j = ((m.read o l).drop i).take j := by
  rw [read, read, List.drop_take, List.take_take, List.drop_drop, Nat.min_eq_left (by omega)]

/-- Writing back what a range holds changes nothing. -/
theorem write_read (m : Mem n) {o len : ℕ} (h : o+len ≤ n) :
    m.write o (m.read o len) = m := by
  have hl : (m.read o len).length = len := by
    rw [read_length]
    omega
  apply Mem.ext
  apply List.ext_getElem?
  intro i
  rw [getElem?_write (by rw [hl]; exact h), hl]
  split_ifs with hi
  · rw [read, List.getElem?_take_of_lt (by omega), List.getElem?_drop]
    congr 1
    omega
  · rfl

end Mem

/-! Machine words. The hosts this is built for are little endian, so a word in
memory has its low byte first and `ntohs`, `htons` and `ntohl` swap bytes. -/

def u16 (x : ℕ) : ℕ := x%2^16

def u32 (x : ℕ) : ℕ := x%2^32

def u64 (x : ℕ) : ℕ := x%2^64

/-- Reading a little-endian word. -/
def leVal : Bytes → ℕ
  | [] => 0
  | b :: bs => b.toNat+256*leVal bs

/-- The value of a big-endian byte string. -/
def beVal (bs : Bytes) : ℕ := leVal bs.reverse

theorem leVal_append_zeros (bs : Bytes) (k : ℕ) : leVal (bs ++ List.replicate k 0) = leVal bs := by
  induction bs with
  | nil =>
    induction k with
    | zero => rfl
    | succ k ih =>
      rw [List.nil_append] at ih
      rw [List.nil_append, List.replicate_succ]
      simp only [leVal, ih]
      rfl
  | cons b bs ih => rw [List.cons_append, leVal, leVal, ih]

/-- Leading zeros do not count. -/
theorem beVal_zeros_append (k : ℕ) (bs : Bytes) : beVal (List.replicate k 0 ++ bs) = beVal bs := by
  rw [beVal, List.reverse_append, List.reverse_replicate, leVal_append_zeros, beVal]

/-- A 16-bit word as it lies in memory. -/
def leBytes16 (x : ℕ) : Bytes := [UInt8.ofNat (x%256), UInt8.ofNat (x/256%256)]

/-- A 16-bit word in network order. -/
def beBytes16 (x : ℕ) : Bytes := [UInt8.ofNat (x/256%256), UInt8.ofNat (x%256)]

def htons (x : ℕ) : ℕ := x%256*256+x/256%256

abbrev ntohs (x : ℕ) : ℕ := htons x

theorem u16_of_lt {x : ℕ} (h : x < 2^16) : u16 x = x := Nat.mod_eq_of_lt h

theorem u32_of_lt {x : ℕ} (h : x < 2^32) : u32 x = x := Nat.mod_eq_of_lt h

theorem leBytes16_htons (x : ℕ) : leBytes16 (htons x) = beBytes16 x := by
  have hlo : x%256 < 256 := Nat.mod_lt _ (by decide)
  have hhi : x/256%256 < 256 := Nat.mod_lt _ (by decide)
  have h1 : (x%256*256+x/256%256)%256 = x/256%256 := by
    generalize x%256 = a at *
    generalize x/256%256 = b at *
    omega
  have h2 : (x%256*256+x/256%256)/256%256 = x%256 := by
    generalize x%256 = a at *
    generalize x/256%256 = b at *
    omega
  rw [leBytes16, htons, h1, h2, beBytes16]

@[simp] theorem beBytes16_length (x : ℕ) : (beBytes16 x).length = 2 := rfl

theorem ntohs_leVal (a b : UInt8) : ntohs (leVal [a, b]) = beVal [a, b] := by
  have ha := a.toNat_lt
  have hb := b.toNat_lt
  simp only [htons, leVal, beVal, List.reverse_cons, List.reverse_nil, List.nil_append,
    List.cons_append]
  omega

theorem beVal_beBytes16 {x : ℕ} (h : x < 2^16) : beVal (beBytes16 x) = x := by
  simp only [beVal, beBytes16, List.reverse_cons, List.reverse_nil, List.nil_append,
    List.cons_append, leVal, UInt8.toNat_ofNat']
  omega

theorem beVal_pair_lt (a b : UInt8) : beVal [a, b] < 2^16 := by
  have ha := a.toNat_lt
  have hb := b.toNat_lt
  simp only [beVal, leVal, List.reverse_cons, List.reverse_nil, List.nil_append, List.cons_append]
  omega

end NvmeSnsd.Lib
