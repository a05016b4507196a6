import NvmeSnsd.Lib.Text
import NvmeSnsd.Lib.Loop

/-! Reading a buffer character by character: what a scan from a position sees,
and loops that walk along it. -/
namespace NvmeSnsd.Lib

/-- `isspace` in the C locale. -/
def isSpace (b : UInt8) : Bool := b == 32 || (9 ≤ b && b ≤ 13)

/-- An end of line. -/
def isNl (b : UInt8) : Bool := b == 10 || b == 13

theorem isSpace_of_isNl {b : UInt8} (h : isNl b = true) : isSpace b = true := by
  simp only [isNl, Bool.or_eq_true, beq_iff_eq] at h
  rcases h with rfl | rfl <;> decide

theorem drop_takeWhile_length (p : UInt8 → Bool) (l : Bytes) :
    l.drop (l.takeWhile p).length = l.dropWhile p := by
  calc l.drop (l.takeWhile p).length
      = (l.takeWhile p ++ l.dropWhile p).drop (l.takeWhile p).length := by
        rw [List.takeWhile_append_dropWhile]
    _ = l.dropWhile p := List.drop_left

namespace Mem
variable {n : ℕ}

/-- `m[i]` -/
def get (m : Mem n) (i : ℕ) : Except Fault UInt8 :=
  match m.bytes[i]? with
  | some b => .ok b
  | none => .error (.load i 1 n)

theorem store_get_ok {m : Mem n} {i : ℕ} (h : i < n) (b : UInt8) :
    m.store i [b] = .ok (m.write i [b]) := store_ok h

/-- Writing behind what was read so far. -/
theorem read_write_append {m : Mem n} {o : ℕ} {s : Bytes} (h : o+s.length ≤ n) :
    (m.write o s).read 0 (o+s.length) = m.read 0 o ++ s := by
  rw [read_append, read_write_before (by omega), Nat.zero_add, read_write h]

/-- A prefix of what was read. -/
theorem read_prefix {m : Mem n} {a b : Bytes} {k : ℕ} (h : m.read 0 k = a ++ b) :
    m.read 0 a.length = a := by
  have hk : a.length ≤ k := by
    have hl := congrArg List.length h
    rw [read_length, List.length_append] at hl
    omega
  have hs : m.read 0 a.length = (m.read 0 k).take a.length := by
    rw [read, read, List.take_take, Nat.min_eq_left hk]
  rw [hs, h, List.take_left]

theorem get_of_eq {m : Mem n} {pre rest : Bytes} {b : UInt8} (h : m.bytes = pre ++ b :: rest) :
    m.get pre.length = .ok b := by
  rw [get, h]
  simp

end Mem

/-- `while (pos < size && p(m[pos])) pos++` -/
def skipBody {n : ℕ} (m : Mem n) (size : ℕ) (p : UInt8 → Bool) (pos : ℕ) :
    Except Fault (Ctl ℕ) := do
  if pos < size then
    let b ← m.get pos
    if p b then return .again (pos+1)
  return .done pos

def skipWhile {n : ℕ} (m : Mem n) (size : ℕ) (p : UInt8 → Bool) (pos : ℕ) : Except Fault ℕ :=
  loop (skipBody m size p) (size+1) pos

/-- What lies between a position and `size`. -/
structure At {n : ℕ} (m : Mem n) (size pos : ℕ) (rest : Bytes) : Prop where
  le : size ≤ n
  eq : ∃ pre tail, m.bytes = pre ++ rest ++ tail ∧ pre.length = pos ∧ pos+rest.length = size

namespace At
variable {n : ℕ} {m : Mem n} {size pos : ℕ} {b : UInt8} {rest : Bytes}

theorem intro (h : size ≤ n) (hp : pos ≤ size) :
    At m size pos ((m.bytes.take size).drop pos) := by
  have hs := m.size
  refine ⟨h, m.bytes.take pos, m.bytes.drop size, ?_, ?_, ?_⟩
  · have ht : m.bytes.take pos = (m.bytes.take size).take pos := by
      rw [List.take_take, Nat.min_eq_left hp]
    rw [ht, List.take_append_drop, List.take_append_drop]
  · rw [List.length_take]
    omega
  · rw [List.length_drop, List.length_take]
    omega

theorem of_read (hle : size ≤ n) (h : m.read 0 size = rest) : At m size 0 rest := by
  have hs := m.size
  refine ⟨hle, [], m.bytes.drop size, ?_, rfl, ?_⟩
  · rw [List.nil_append, ← h, Mem.read, List.drop_zero, List.take_append_drop]
  · rw [← h, Mem.read_length]
    omega

theorem read (h : At m size 0 rest) : m.read 0 size = rest := by
  obtain ⟨pre, tail, hm, hp, hl⟩ := h.eq
  rw [List.length_eq_zero_iff.mp hp, List.nil_append] at hm
  rw [Mem.read, List.drop_zero, hm, ← hl, Nat.zero_add, List.take_left]

theorem get (h : At m size pos (b :: rest)) : m.get pos = .ok b := by
  obtain ⟨pre, tail, hm, hp, -⟩ := h.eq
  rw [List.append_assoc, List.cons_append] at hm
  rw [← hp]
  exact Mem.get_of_eq hm

theorem lt (h : At m size pos (b :: rest)) : pos < size := by
  obtain ⟨pre, tail, -, -, hl⟩ := h.eq
  rw [List.length_cons] at hl
  omega

theorem eq_size (h : At m size pos []) : pos = size := by
  obtain ⟨pre, tail, -, -, hl⟩ := h.eq
  rw [List.length_nil] at hl
  omega

theorem length (h : At m size pos rest) : pos+rest.length = size := by
  obtain ⟨pre, tail, -, -, hl⟩ := h.eq
  exact hl

theorem next (h : At m size pos (b :: rest)) : At m size (pos+1) rest := by
  obtain ⟨pre, tail, hm, hp, hl⟩ := h.eq
  refine ⟨h.le, pre ++ [b], tail, ?_, ?_, ?_⟩
  · rw [hm]
    simp
  · rw [List.length_append, List.length_singleton, hp]
  · rw [List.length_cons] at hl
    omega

/-- Moving on by a part of what is left. -/
theorem skip {a : Bytes} (h : At m size pos (a ++ rest)) : At m size (pos+a.length) rest := by
  induction a generalizing pos with
  | nil => exact h
  | cons b a ih =>
    have hn := ih (h.next)
    rw [List.length_cons, Nat.add_comm a.length 1, ← Nat.add_assoc]
    exact hn

theorem dropWhile (h : At m size pos rest) (p : UInt8 → Bool) :
    At m size (pos+(rest.takeWhile p).length) (rest.dropWhile p) := by
  rw [← List.takeWhile_append_dropWhile (p := p) (l := rest)] at h
  exact h.skip

/-- The walk ends at the first character that does not qualify. -/
theorem skipWhile_eq (h : At m size pos rest) (p : UInt8 → Bool) :
    skipWhile m size p pos = .ok (pos+(rest.takeWhile p).length) := by
  have hloop : ∀ fuel, rest.length < fuel →
      loop (skipBody m size p) fuel pos = .ok (pos+(rest.takeWhile p).length) := by
    induction rest generalizing pos with
    | nil =>
      intro fuel hf
      obtain ⟨fuel, rfl⟩ := Nat.exists_eq_succ_of_ne_zero (Nat.ne_zero_of_lt hf)
      apply loop_done
      rw [skipBody, if_neg (by rw [h.eq_size]; exact Nat.lt_irrefl _)]
      rfl
    | cons b rest ih =>
      intro fuel hf
      obtain ⟨fuel, rfl⟩ := Nat.exists_eq_succ_of_ne_zero (Nat.ne_zero_of_lt hf)
      rw [List.length_cons] at hf
      cases hp : p b with
      | true =>
        have hbody : skipBody m size p pos = .ok (.again (pos+1)) := by
          rw [skipBody, if_pos h.lt, h.get]
          simp only [ok_bind, hp, if_true]
          rfl
        rw [loop_again hbody, ih h.next fuel (by omega), List.takeWhile_cons_of_pos hp,
          List.length_cons, Nat.add_right_comm, Nat.add_assoc]
      | false =>
        rw [List.takeWhile_cons_of_neg (by simp [hp])]
        apply loop_done
        rw [skipBody, if_pos h.lt, h.get]
        simp only [ok_bind, hp]
        rfl
  have hl := h.length
  exact hloop (size+1) (by omega)

end At

/-- A terminated string in `m` from position `pos` on. -/
structure Str {n : ℕ} (m : Mem n) (pos : ℕ) (text : Bytes) : Prop where
  eq : ∃ pre tail, m.bytes = pre ++ text ++ 0 :: tail ∧ pre.length = pos
  noNul : 0 ∉ text

namespace Str
variable {n : ℕ} {m : Mem n} {pos : ℕ} {b : UInt8} {text : Bytes}

/-- The character at the position, which is the terminator at the end. -/
theorem get (h : Str m pos text) : m.get pos = .ok (text.headD 0) := by
  obtain ⟨pre, tail, hm, hp⟩ := h.eq
  rw [← hp]
  cases text with
  | nil =>
    rw [List.append_nil] at hm
    exact Mem.get_of_eq hm
  | cons b text =>
    rw [List.append_assoc, List.cons_append] at hm
    exact Mem.get_of_eq hm

theorem next (h : Str m pos (b :: text)) : Str m (pos+1) text := by
  obtain ⟨pre, tail, hm, hp⟩ := h.eq
  refine ⟨⟨pre ++ [b], tail, ?_, ?_⟩, fun h0 => h.noNul (List.mem_cons_of_mem _ h0)⟩
  · rw [hm]
    simp
  · rw [List.length_append, List.length_singleton, hp]

theorem skip {a : Bytes} (h : Str m pos (a ++ text)) : Str m (pos+a.length) text := by
  induction a generalizing pos with
  | nil => exact h
  | cons b a ih =>
    have hn := ih h.next
    rw [List.length_cons, Nat.add_comm a.length 1, ← Nat.add_assoc]
    exact hn

theorem cstr (h : Str m 0 text) : m.cstr 0 = .ok text := by
  obtain ⟨pre, tail, hm, hp⟩ := h.eq
  rw [List.length_eq_zero_iff.mp hp, List.nil_append] at hm
  rw [Mem.cstr, List.drop_zero, hm, takeWhile_zero h.noNul, if_pos (by simp)]

/-- A walk through the string that does not pass the terminator. -/
theorem skipWhile_eq (h : Str m pos text) {p : UInt8 → Bool} (hp : p 0 = false) :
    skipWhile m n p pos = .ok (pos+(text.takeWhile p).length) := by
  obtain ⟨pre, tail, hm, hpos⟩ := h.eq
  have hat : At m n pos (text ++ 0 :: tail) := by
    refine ⟨le_rfl, pre, [], ?_, hpos, ?_⟩
    · rw [hm, List.append_nil, List.append_assoc]
    · have hs := congrArg List.length hm
      rw [m.size, List.append_assoc, List.length_append, hpos] at hs
      exact hs.symm
  rw [hat.skipWhile_eq, takeWhile_append_stop hp]

theorem dropWhile (h : Str m pos text) (p : UInt8 → Bool) :
    Str m (pos+(text.takeWhile p).length) (text.dropWhile p) := by
  rw [← List.takeWhile_append_dropWhile (p := p) (l := text)] at h
  exact h.skip

/-- A string that was copied to the start of a cleared array. -/
theorem of_write (hm : m.bytes = List.replicate n 0) (hl : text.length < n) (h0 : 0 ∉ text) :
    Str (m.write 0 text) 0 text := by
  refine ⟨⟨[], List.replicate (n-text.length-1) 0, ?_, rfl⟩, h0⟩
  have hrep : n-text.length = n-text.length-1+1 := by omega
  rw [Mem.write_bytes (by omega), hm, List.take_zero, Nat.zero_add, List.drop_replicate, hrep,
    List.replicate_succ, Nat.add_sub_cancel]

end Str

end NvmeSnsd.Lib
