import Mathlib.Data.List.TakeWhile
import NvmeSnsd.Lib.Bytes

/-! C strings: the bytes before the terminator, what fits an array of a given
size, and the decimal texts that `%d` prints. -/
namespace NvmeSnsd.Lib

/-- The bytes of an ASCII literal. -/
def ascii (s : String) : Bytes := s.toList.map fun c => UInt8.ofNat c.toNat

/-- What all bytes of a closed text satisfy is decided on the list. -/
theorem forall_mem_of_all {l : Bytes} {p : UInt8 → Prop} [DecidablePred p]
    (h : l.all (fun b => decide (p b)) = true) : ∀ b ∈ l, p b :=
  fun b hb => of_decide_eq_true (List.all_eq_true.mp h b hb)

/-- The string in an array of `cap` bytes, without its terminator. -/
structure CStr (cap : ℕ) where
  text : Bytes
  fits : text.length < cap
  noNul : 0 ∉ text
  deriving DecidableEq

namespace CStr
variable {cap : ℕ}

@[ext] theorem ext {a b : CStr cap} (h : a.text = b.text) : a = b := by
  cases a; cases b; cases h; rfl

def empty (h : 0 < cap) : CStr cap := ⟨[], h, List.not_mem_nil⟩

/-- `strncpy(dst, src, cap)` with the last byte set to the terminator, or
`snprintf(dst, cap, ..)` of a text without a terminator in it. -/
def clip (h : 0 < cap) (src : Bytes) : CStr cap where
  text := (src.takeWhile (· != 0)).take (cap-1)
  fits := by
    have hl := List.length_take_le (cap-1) (src.takeWhile (· != 0))
    omega
  noNul := by
    intro hz
    have hw := List.mem_takeWhile_imp (List.mem_of_mem_take hz)
    simp at hw

theorem clip_text {h : 0 < cap} {src : Bytes} (hz : 0 ∉ src) (hl : src.length < cap) :
    (clip h src).text = src := by
  have hw : src.takeWhile (· != 0) = src := by
    rw [List.takeWhile_eq_self_iff]
    intro b hb
    simp only [bne_iff_ne]
    rintro rfl
    exact hz hb
  simp only [clip, hw]
  exact List.take_of_length_le (Nat.le_sub_one_of_lt hl)

end CStr

/-! Copying a string into an array. -/

namespace Mem
variable {n : ℕ}

/-- `strncpy(m + off, p, len)`: the bytes before the terminator, and zeros up to
`len`. A source that ends without one is read past its end. -/
def strncpy (m : Mem n) (off : ℕ) (p : Ptr) (len : ℕ) : Except Fault (Mem n) :=
  let s := (p.rest.take len).takeWhile (· != 0)
  if s.length = p.rest.length ∧ s.length < len then
    .error (.load p.off (s.length+1) p.mem.length)
  else m.store off (s ++ List.replicate (len-s.length) 0)

/-- A source of at least `len` bytes needs no terminator. -/
theorem strncpy_ok {m : Mem n} {o len : ℕ} {p : Ptr} (hp : len ≤ p.rest.length)
    (hm : o+len ≤ n) : ∃ m', m.strncpy o p len = .ok m' := by
  have hle := (List.takeWhile_prefix (· != 0) (l := p.rest.take len)).length_le
  rw [List.length_take] at hle
  simp only [strncpy]
  rw [if_neg (by omega), store_ok]
  · exact ⟨_, rfl⟩
  · rw [List.length_append, List.length_replicate]
    omega

end Mem

/-- `strlen(p)`; a text without a terminator is read past its end. -/
def Ptr.strlen (p : Ptr) : Except Fault ℕ :=
  let s := p.rest.takeWhile (· != 0)
  if s.length < p.rest.length then .ok s.length
  else .error (.load p.off (s.length+1) p.mem.length)

/-- `strcpy(m + off, p)` -/
def Mem.strcpy {n : ℕ} (m : Mem n) (off : ℕ) (p : Ptr) : Except Fault (Mem n) := do
  m.memcpy off p ((← p.strlen)+1)

/-- A terminated text stands in its object before a zero. -/
theorem Ptr.strlen_text {p : Ptr} {s rest : Bytes} (hs : 0 ∉ s) (hp : p.rest = s ++ 0 :: rest) :
    p.strlen = .ok s.length := by
  have hall : ∀ b ∈ s, (b != 0) = true := by
    intro b hb
    rw [bne_iff_ne]
    intro h
    exact hs (h ▸ hb)
  have htext : (s ++ 0 :: rest).takeWhile (· != 0) = s := by
    rw [List.takeWhile_append_of_pos hall, List.takeWhile_cons_of_neg (by decide), List.append_nil]
  rw [strlen, hp, htext]
  exact if_pos (by rw [List.length_append, List.length_cons]; omega)

/-- A copy that ends before the object does. -/
theorem Mem.memcpy_text {n off : ℕ} {m : Mem n} {p : Ptr} {s rest : Bytes} {b : UInt8}
    (hp : p.rest = s ++ b :: rest) (hm : off+s.length ≤ n) :
    m.memcpy off p s.length = .ok (m.write off s) := by
  have hlen := congrArg List.length hp
  rw [Ptr.rest_length, List.length_append, List.length_cons] at hlen
  rw [memcpy_ok (by omega) hm]
  exact congrArg (fun l => Except.ok (m.write off l))
    ((congrArg (List.take s.length) hp).trans List.take_left)

/-- The copy holds the text and its terminator. -/
theorem Mem.strcpy_text {n off : ℕ} {m : Mem n} {p : Ptr} {s rest : Bytes} (hs : 0 ∉ s)
    (hp : p.rest = s ++ 0 :: rest) (hm : off+(s.length+1) ≤ n) :
    m.strcpy off p = .ok (m.write off (s ++ [0])) := by
  have hlen : s.length+1 ≤ p.rest.length := by
    rw [hp, List.length_append, List.length_cons]
    omega
  have htake : (s ++ 0 :: rest).take (s.length+1) = s ++ [0] := by
    rw [List.append_cons]
    exact List.take_left' (by rw [List.length_append, List.length_singleton])
  rw [strcpy, Ptr.strlen_text hs hp, ok_bind, memcpy, Ptr.load_rest (Nat.succ_pos _) hlen, ok_bind,
    hp, htake, store_ok (by rwa [List.length_append, List.length_singleton])]

/-! Decimal numbers. -/

/-- `%u` -/
def decimal (n : ℕ) : Bytes := (Nat.toDigits 10 n).map fun c => UInt8.ofNat c.toNat

/-- `%d` -/
def signedDecimal (i : ℤ) : Bytes :=
  if i < 0 then 45 :: decimal i.natAbs else decimal i.natAbs

theorem decimal_digit {n : ℕ} {b : UInt8} (h : b ∈ decimal n) : 48 ≤ b.toNat ∧ b.toNat ≤ 57 := by
  obtain ⟨c, hc, rfl⟩ := List.mem_map.mp h
  have hd := Nat.isDigit_of_mem_toDigits (by decide) (by decide) hc
  obtain ⟨hl, hu⟩ := Char.isDigit_iff_toNat.mp hd
  have hl : 48 ≤ c.toNat := hl
  have hu : c.toNat ≤ 57 := hu
  rw [UInt8.toNat_ofNat', Nat.mod_eq_of_lt (by omega)]
  exact ⟨hl, hu⟩

theorem not_mem_decimal {n : ℕ} {b : UInt8} (h : b.toNat < 48 ∨ 57 < b.toNat) : b ∉ decimal n := by
  intro hb
  obtain ⟨hl, hu⟩ := decimal_digit hb
  omega

theorem decimal_length_le {n k : ℕ} (hk : 0 < k) (h : n < 10^k) : (decimal n).length ≤ k := by
  rw [decimal, List.length_map]
  exact (Nat.length_toDigits_le_iff (by decide) hk).mpr h

theorem decimal_injective : Function.Injective decimal := by
  intro a b h
  -- a digit is read back from its byte
  have hback : ∀ n, (decimal n).map (fun x => Char.ofNat x.toNat) = Nat.toDigits 10 n := by
    intro n
    rw [decimal, List.map_map, List.map_congr_left, List.map_id]
    intro c hc
    have hd := Nat.isDigit_of_mem_toDigits (by decide) (by decide) hc
    have hu : c.toNat ≤ 57 := (Char.isDigit_iff_toNat.mp hd).2
    simp only [Function.comp_apply, id_eq]
    rw [UInt8.toNat_ofNat', Nat.mod_eq_of_lt (by omega), Char.ofNat_toNat]
  have hd : Nat.toDigits 10 a = Nat.toDigits 10 b := by rw [← hback a, ← hback b, h]
  calc a = Nat.ofDigitChars 10 (Nat.toDigits 10 a) 0 := Nat.ofDigitChars_ten_toDigits.symm
    _ = Nat.ofDigitChars 10 (Nat.toDigits 10 b) 0 := by rw [hd]
    _ = b := Nat.ofDigitChars_ten_toDigits

theorem decimal_ne_nil (n : ℕ) : decimal n ≠ [] := by
  rw [decimal, Ne, List.map_eq_nil_iff]
  exact Nat.toDigits_ne_nil

/-- A 32-bit number takes at most eleven characters. -/
theorem signedDecimal_length_le (i : Int32) : (signedDecimal i.toInt).length ≤ 11 := by
  have hl := i.le_toInt
  have hu := i.toInt_lt
  have habs : (decimal i.toInt.natAbs).length ≤ 10 := by
    apply decimal_length_le (by decide)
    omega
  rw [signedDecimal]
  split
  · rw [List.length_cons]
    omega
  · omega

theorem mem_signedDecimal {i : ℤ} {b : UInt8} (h : b ∈ signedDecimal i) :
    b = 45 ∨ 48 ≤ b.toNat ∧ b.toNat ≤ 57 := by
  rw [signedDecimal] at h
  split at h
  · rcases List.mem_cons.mp h with rfl | h
    · exact Or.inl rfl
    · exact Or.inr (decimal_digit h)
  · exact Or.inr (decimal_digit h)

/-! Texts joined by a separator. -/

section Separated
variable {s : UInt8} {w : Bytes}

theorem intercalate_cons_flatMap (l : Bytes) (ls : List Bytes) :
    [s].intercalate (l :: ls) = l ++ ls.flatMap (s :: ·) := by
  induction ls generalizing l with
  | nil => simp
  | cons m ls ih =>
    rw [List.intercalate_cons_cons, ih, List.flatMap_cons]
    simp

/-- What has no separator in it lies on one side of a separator. -/
theorem infix_append_sep {a b : Bytes} (hs : s ∉ w) (h : w <:+: a ++ s :: b) :
    w <:+: a ∨ w <:+: b := by
  obtain ⟨p, q, h⟩ := h
  rw [List.append_assoc] at h
  rcases List.append_eq_append_iff.mp h with ⟨a', ha, h⟩ | ⟨c, hp, h⟩
  · rcases List.append_eq_append_iff.mp h with ⟨x, ha', hq⟩ | ⟨y, hw, hy⟩
    · exact Or.inl ⟨p, x, by rw [ha, ha', List.append_assoc]⟩
    · rcases y with _ | ⟨t, y⟩
      · rw [List.append_nil] at hw
        exact Or.inl ⟨p, [], by rw [ha, hw, List.append_nil]⟩
      · obtain ⟨rfl, -⟩ := List.cons_eq_cons.mp hy
        exact absurd (by rw [hw]; simp) hs
  · rcases c with _ | ⟨t, c⟩
    · rcases w with _ | ⟨t, w⟩
      · exact Or.inl List.nil_infix
      · obtain ⟨rfl, -⟩ := List.cons_eq_cons.mp h
        exact absurd List.mem_cons_self hs
    · obtain ⟨-, hb⟩ := List.cons_eq_cons.mp h
      exact Or.inr ⟨c, q, (List.append_assoc c w q).trans hb.symm⟩

/-- A word that ends in the separator ends at the first one or lies behind it. -/
theorem infix_concat_sep {a b : Bytes} (hs : s ∉ w) (ha : s ∉ a) :
    w ++ [s] <:+: a ++ s :: b ↔ w <:+ a ∨ w ++ [s] <:+: b := by
  constructor
  · intro h
    obtain ⟨p, q, h⟩ := h
    have heq : (p ++ w) ++ s :: q = a ++ s :: b := by
      rw [← h]
      simp only [List.append_assoc, List.singleton_append]
    rcases List.append_eq_append_iff.mp heq with ⟨x, hx, hb⟩ | ⟨x, hx, hb⟩
    · rcases x with _ | ⟨t, x⟩
      · rw [List.append_nil] at hx
        exact Or.inl ⟨p, hx.symm⟩
      · obtain ⟨rfl, -⟩ := List.cons_eq_cons.mp hb
        exact absurd (by rw [hx]; simp) ha
    · rcases x with _ | ⟨t, x⟩
      · rw [List.append_nil] at hx
        exact Or.inl ⟨p, hx⟩
      · obtain ⟨rfl, rfl⟩ := List.cons_eq_cons.mp hb
        -- the word does not reach back over the first separator
        rw [List.append_cons] at hx
        rcases List.append_eq_append_iff.mp hx with ⟨y, hsep, hw⟩ | ⟨y, -, hy⟩
        · rcases List.eq_nil_or_concat y with rfl | ⟨z, t, rfl⟩
          · rw [List.nil_append] at hw
            exact Or.inr ⟨[], q, by simp [hw]⟩
          · have hlast := congrArg List.getLast? hsep
            have ht : t = s := by simpa using hlast.symm
            exact absurd (by rw [hw, ht]; simp) hs
        · exact Or.inr ⟨y, q, by simp [hy]⟩
  · intro h
    rcases h with ⟨p, rfl⟩ | ⟨p, q, rfl⟩
    · exact ⟨p, b, by simp⟩
    · exact ⟨a ++ s :: p, q, by simp⟩

/-- Splitting a joined text splits its parts. -/
theorem splitOn_intercalate_flatMap {ls : List Bytes} (h : ls ≠ []) :
    ([s].intercalate ls).splitOn s = ls.flatMap (·.splitOn s) := by
  induction ls with
  | nil => exact absurd rfl h
  | cons l ls ih =>
    rcases ls with _ | ⟨m, ls⟩
    · rw [List.intercalate_singleton, List.flatMap_cons, List.flatMap_nil, List.append_nil]
    · rw [List.intercalate_cons_cons, List.append_assoc, List.singleton_append,
        List.splitOn_append_cons_self, ih (List.cons_ne_nil _ _), ← List.flatMap_cons]

/-- What has no separator in it lies in one of the parts. -/
theorem infix_intercalate {ls : List Bytes} (hw : w ≠ []) (hs : s ∉ w)
    (h : w <:+: [s].intercalate ls) : ∃ l ∈ ls, w <:+: l := by
  induction ls with
  | nil => exact absurd (List.infix_nil.mp h) hw
  | cons l ls ih =>
    rcases ls with _ | ⟨m, ls⟩
    · rw [List.intercalate_singleton] at h
      exact ⟨l, List.mem_cons_self, h⟩
    · rw [List.intercalate_cons_cons, List.append_assoc, List.singleton_append] at h
      rcases infix_append_sep hs h with h | h
      · exact ⟨l, List.mem_cons_self, h⟩
      · obtain ⟨x, hx, h⟩ := ih h
        exact ⟨x, List.mem_cons_of_mem _ hx, h⟩

theorem infix_intercalate_of_mem {l : Bytes} {ls : List Bytes} (h : l ∈ ls) :
    l <:+: [s].intercalate ls := by
  induction ls with
  | nil => simp at h
  | cons m ls ih =>
    rw [intercalate_cons_flatMap]
    rcases List.mem_cons.mp h with rfl | h
    · exact List.infix_append' [] l _
    · rcases ls with _ | ⟨n, ls⟩
      · simp at h
      · have hrest := ih h
        rw [intercalate_cons_flatMap] at hrest
        rw [List.flatMap_cons]
        exact hrest.trans ⟨m ++ [s], [], by simp⟩

end Separated

/-! The string in a memory object, which ends at the first zero. -/

/-- The bytes that `%s` and the `str` functions see at `off`. -/
def Mem.cstr {n : ℕ} (m : Mem n) (off : ℕ) : Except Fault Bytes :=
  if 0 ∈ m.bytes.drop off then .ok ((m.bytes.drop off).takeWhile (· != 0))
  else .error (.load n 1 n)

/-- What the walk stops at is not looked behind. -/
theorem takeWhile_append_stop {p : UInt8 → Bool} {b : UInt8} (hb : p b = false) (a rest : Bytes) :
    (a ++ b :: rest).takeWhile p = a.takeWhile p := by
  induction a with
  | nil => simp [hb]
  | cons x a ih => rw [List.cons_append, List.takeWhile_cons, List.takeWhile_cons, ih]

/-- A walk over bytes that it passes ends at the first that it does not. -/
theorem takeWhile_cut {p : UInt8 → Bool} {a : Bytes} {b : UInt8} (ha : ∀ x ∈ a, p x = true)
    (hb : p b = false) (rest : Bytes) : (a ++ b :: rest).takeWhile p = a := by
  rw [takeWhile_append_stop hb, List.takeWhile_eq_self_iff]
  exact ha

theorem takeWhile_zero {text rest : Bytes} (hz : 0 ∉ text) :
    (text ++ 0 :: rest).takeWhile (· != 0) = text := by
  rw [takeWhile_append_stop (by decide), List.takeWhile_eq_self_iff]
  intro b hb
  simp only [bne_iff_ne]
  rintro rfl
  exact hz hb

/-- A terminator was written behind the text. -/
theorem Mem.cstr_of_read_take {n : ℕ} {m : Mem n} {text : Bytes}
    (h : m.read 0 (text.length+1) = text ++ [0]) : m.cstr 0 = .ok (text.takeWhile (· != 0)) := by
  have hm : m.bytes = text ++ 0 :: m.bytes.drop (text.length+1) := by
    calc m.bytes = m.bytes.take (text.length+1) ++ m.bytes.drop (text.length+1) :=
          (List.take_append_drop _ _).symm
      _ = text ++ 0 :: m.bytes.drop (text.length+1) := by
          rw [Mem.read, List.drop_zero] at h
          rw [h, List.append_assoc, List.singleton_append]
  rw [Mem.cstr, List.drop_zero, hm, takeWhile_append_stop (by decide), if_pos (by simp)]

theorem Mem.cstr_of_read {n : ℕ} {m : Mem n} {text : Bytes} (hz : 0 ∉ text)
    (h : m.read 0 (text.length+1) = text ++ [0]) : m.cstr 0 = .ok text := by
  have htake : text.takeWhile (· != 0) = text := by
    have hz' : (text ++ [0]).takeWhile (· != 0) = text := takeWhile_zero hz
    rwa [takeWhile_append_stop (by decide)] at hz'
  rw [Mem.cstr_of_read_take h, htake]

end NvmeSnsd.Lib
