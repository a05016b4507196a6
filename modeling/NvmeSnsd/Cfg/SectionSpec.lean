import Mathlib.Data.List.DropRight
import NvmeSnsd.Cfg.Section

/-! What finding a section and taking out its blanks come to, as functions of
the text. -/
namespace NvmeSnsd.Cfg
open Lib

/-! The section. -/

/-- What stands behind a name that `]` ends. -/
def afterName (cs : Bytes) : Bytes := (cs.dropWhile (· != 93)).tail

theorem afterName_length_le (cs : Bytes) : (afterName cs).length ≤ cs.length := by
  rw [afterName, List.length_tail]
  have h := List.length_dropWhile_le (· != 93) cs
  omega

/-- The text of the first section with the name, when the file can be read up to
it: every name before it has to end within 32 characters. -/
def sectionText (name : Bytes) : Bytes → Option Bytes
  | [] => none
  | c :: cs =>
    if c = 91 then
      if 93 ∈ cs.take SNSD_MAX_SECTION_NAME_LEN then
        if (cs.takeWhile (· != 93)).takeWhile (· != 0) = name then
          some ((afterName cs).takeWhile (· != 91))
        else sectionText name (afterName cs)
      else none
    else sectionText name cs
  termination_by cs => cs.length
  decreasing_by
  · have h := afterName_length_le cs
    rw [List.length_cons]
    omega
  · exact Nat.lt_succ_self _

/-- The first character left, and the rest behind it. -/
theorem getElem?_of_drop {file cs : Bytes} {c : UInt8} {pos : ℕ} (h : file.drop pos = c :: cs) :
    file[pos]? = some c ∧ file.drop (pos+1) = cs := by
  constructor
  · rw [← List.head?_drop, h, List.head?_cons]
  · rw [← List.tail_drop, h, List.tail_cons]

theorem getElem?_of_drop_nil {file : Bytes} {pos : ℕ} (h : file.drop pos = []) :
    file[pos]? = none := by
  rw [← List.head?_drop, h, List.head?_nil]

/-- The loop of `snsd_read_section_name` from any point: it ends at the bracket
if there is one in the room that is left. -/
theorem readName_loop {file : Bytes} (cs : Bytes) : ∀ {pos k : ℕ} (fuel : ℕ)
    (buf : Mem SNSD_MAX_SECTION_NAME_LEN), file.drop pos = cs → k ≤ 32 → 32-k < fuel →
    ∃ r, loop (readNameBody file) fuel ⟨buf, pos, k, 0⟩ = .ok r ∧
      (93 ∈ cs.take (32-k) → r.ret = 0 ∧ r.pos = pos+((cs.takeWhile (· != 93)).length+1) ∧
        r.buf.read 0 (k+(cs.takeWhile (· != 93)).length+1) =
          buf.read 0 k ++ cs.takeWhile (· != 93) ++ [0]) ∧
      (93 ∉ cs.take (32-k) → r.ret ≠ 0) := by
  induction cs with
  | nil =>
    intro pos k fuel buf hd hk hf
    obtain ⟨fuel, rfl⟩ := Nat.exists_eq_succ_of_ne_zero (Nat.ne_zero_of_lt hf)
    have hnil : 93 ∉ ([] : Bytes).take (32-k) := by simp
    by_cases hlt : k < SNSD_MAX_SECTION_NAME_LEN
    · refine ⟨⟨buf, pos, k, - EIO⟩, loop_done ?_, fun h => absurd h hnil, fun _ => by simp [ EIO]⟩
      rw [readNameBody, if_pos hlt]
      simp only [getElem?_of_drop_nil hd]
      rfl
    · refine ⟨⟨buf, pos, k, -ENOMEM⟩, loop_done ?_, fun h => absurd h hnil, fun _ => by simp [ENOMEM]⟩
      rw [readNameBody, if_neg hlt]
      rfl
  | cons c cs ih =>
    intro pos k fuel buf hd hk hf
    obtain ⟨fuel, rfl⟩ := Nat.exists_eq_succ_of_ne_zero (Nat.ne_zero_of_lt hf)
    obtain ⟨hc, hd'⟩ := getElem?_of_drop hd
    by_cases hlt : k < SNSD_MAX_SECTION_NAME_LEN
    case neg =>
      have hk32 : 32-k = 0 := Nat.sub_eq_zero_of_le (Nat.le_of_not_lt hlt)
      have hnil : 93 ∉ (c :: cs).take (32-k) := by
        rw [hk32]
        simp
      refine ⟨⟨buf, pos, k, -ENOMEM⟩, loop_done ?_, fun h => absurd h hnil, fun _ => by simp [ENOMEM]⟩
      rw [readNameBody, if_neg hlt]
      rfl
    have hroom : k < 32 := hlt
    have hstep : 32-k = 32-(k+1)+1 := by omega
    have hone : ∀ b : UInt8, k+[b].length ≤ SNSD_MAX_SECTION_NAME_LEN := fun _ => hlt
    by_cases h93 : c = 93
    · -- the bracket
      subst h93
      refine ⟨⟨(buf.write k [93]).write k [0], pos+1, k, 0⟩, loop_done ?_, fun _ => ?_, fun h => ?_⟩
      · rw [readNameBody, if_pos hlt]
        simp only [hc, Mem.store_get_ok hlt, ok_bind, if_true]
        rfl
      · refine ⟨rfl, rfl, ?_⟩
        have hread := Mem.read_write_append (m := buf.write k [93]) (hone 0)
        have hbefore : (buf.write k [93]).read 0 k = buf.read 0 k :=
          Mem.read_write_before (by omega)
        rw [hbefore] at hread
        rw [List.takeWhile_cons_of_neg (by simp), List.append_nil]
        exact hread
      · rw [hstep, List.take_succ_cons] at h
        exact absurd List.mem_cons_self h
    · have hbody : readNameBody file ⟨buf, pos, k, 0⟩ =
          .ok (.again ⟨buf.write k [c], pos+1, k+1, 0⟩) := by
        rw [readNameBody, if_pos hlt]
        simp only [hc, Mem.store_get_ok hlt, ok_bind, if_neg h93]
        rfl
      obtain ⟨r, hr, hin, hout⟩ := ih fuel (buf.write k [c]) hd' (show k+1 ≤ 32 by omega)
        (show 32-(k+1) < fuel by omega)
      have hmem : 93 ∈ (c :: cs).take (32-k) ↔ 93 ∈ cs.take (32-(k+1)) := by
        rw [hstep, List.take_succ_cons, List.mem_cons]
        simp [Ne.symm h93]
      refine ⟨r, ?_, fun h => ?_, fun h => hout (mt hmem.mpr h)⟩
      · rw [loop_again hbody, hr]
      · obtain ⟨hret, hpos, hbuf⟩ := hin (hmem.mp h)
        have hread := Mem.read_write_append (m := buf) (hone c)
        rw [List.length_singleton] at hread
        rw [List.takeWhile_cons_of_pos (by simpa using h93), List.length_cons]
        refine ⟨hret, by omega, ?_⟩
        rw [hread] at hbuf
        have hsum : k+((cs.takeWhile (· != 93)).length+1)+1 =
            k+1+(cs.takeWhile (· != 93)).length+1 := by omega
        rw [hsum, hbuf]
        simp

theorem nameText_of_read {buf : Mem SNSD_MAX_SECTION_NAME_LEN} {nm : Bytes} {k : ℕ}
    (h : buf.read 0 k = nm ++ [0]) : nameText buf = nm.takeWhile (· != 0) := by
  have hb : buf.bytes = nm ++ 0 :: buf.bytes.drop k := by
    rw [Mem.read, List.drop_zero] at h
    calc buf.bytes = buf.bytes.take k ++ buf.bytes.drop k := (List.take_append_drop _ _).symm
      _ = nm ++ 0 :: buf.bytes.drop k := by
          rw [h, List.append_assoc, List.singleton_append]
  rw [nameText, hb, takeWhile_append_stop (by decide)]

/-- `snsd_read_section_name`, as a whole. -/
theorem readSectionName_eq {file cs : Bytes} {pos : ℕ} (buf : Mem SNSD_MAX_SECTION_NAME_LEN)
    (hd : file.drop pos = cs) :
    ∃ r, snsdReadSectionName file buf pos = .ok r ∧
      (93 ∈ cs.take SNSD_MAX_SECTION_NAME_LEN → r.ret = 0 ∧ file.drop r.pos = afterName cs ∧
        nameText r.buf = (cs.takeWhile (· != 93)).takeWhile (· != 0)) ∧
      (93 ∉ cs.take SNSD_MAX_SECTION_NAME_LEN → r.ret ≠ 0) := by
  obtain ⟨r, hr, hin, hout⟩ := readName_loop cs (SNSD_MAX_SECTION_NAME_LEN+1) buf hd
    (Nat.zero_le _) (Nat.lt_succ_self _)
  refine ⟨r, hr, fun h => ?_, hout⟩
  obtain ⟨hret, hpos, hbuf⟩ := hin h
  refine ⟨hret, ?_, ?_⟩
  · rw [hpos, ← List.drop_drop, hd, ← List.drop_drop, drop_takeWhile_length, List.drop_one,
      afterName]
  · have h0 : buf.read 0 0 = [] := List.length_eq_zero_iff.mp (by rw [Mem.read_length]; simp)
    rw [h0, List.nil_append] at hbuf
    exact nameText_of_read hbuf

/-- The loop of `snsd_read_section` from any point: it has the room, since the
name of the section has been read before it. -/
theorem readSection_loop {file : Bytes} (cs : Bytes) : ∀ {pos k : ℕ} (len fuel : ℕ)
    (buff : Mem (file.length+1)), file.drop pos = cs → k+cs.length < file.length →
    cs.length < fuel →
    ∃ r, loop (readSectionBody file) fuel ⟨buff, pos, k, len, 0⟩ = .ok r ∧ r.ret = 0 ∧
      r.len = k+(cs.takeWhile (· != 91)).length ∧
      r.buff.read 0 r.len = buff.read 0 k ++ cs.takeWhile (· != 91) := by
  induction cs with
  | nil =>
    intro pos k len fuel buff hd hk hf
    obtain ⟨fuel, rfl⟩ := Nat.exists_eq_succ_of_ne_zero (Nat.ne_zero_of_lt hf)
    rw [List.length_nil, Nat.add_zero] at hk
    have hlt : k < file.length+1 := by omega
    -- whatever is found behind the end, the section ends here
    have hkeep : (buff.write k [0]).read 0 k = buff.read 0 k :=
      Mem.read_write_before (by omega)
    have hget : ∃ b, buff.get k = .ok b := by
      have hs := buff.size
      refine ⟨buff.bytes[k], ?_⟩
      rw [Mem.get, List.getElem?_eq_getElem (by omega)]
    obtain ⟨b, hb⟩ := hget
    by_cases h91 : b = 91
    · refine ⟨⟨buff.write k [0], pos+1, k, k, 0⟩, loop_done ?_, rfl, rfl, ?_⟩
      · rw [readSectionBody, if_pos hk]
        simp only [getElem?_of_drop_nil hd, hb, ok_bind, if_pos h91, Mem.store_get_ok hlt]
        rfl
      · rw [List.takeWhile_nil, List.append_nil]
        exact hkeep
    · refine ⟨⟨buff.write k [0], pos, k, k, 0⟩, loop_done ?_, rfl, rfl, ?_⟩
      · rw [readSectionBody, if_pos hk]
        simp only [getElem?_of_drop_nil hd, hb, ok_bind, if_neg h91, Mem.store_get_ok hlt, if_true]
        rfl
      · rw [List.takeWhile_nil, List.append_nil]
        exact hkeep
  | cons c cs ih =>
    intro pos k len fuel buff hd hk hf
    obtain ⟨fuel, rfl⟩ := Nat.exists_eq_succ_of_ne_zero (Nat.ne_zero_of_lt hf)
    obtain ⟨hc, hd'⟩ := getElem?_of_drop hd
    rw [List.length_cons] at hk hf
    have hk' : k < file.length := by omega
    have hlt : k < file.length+1 := by omega
    have hone : k+[c].length ≤ file.length+1 := by
      rw [List.length_singleton]
      omega
    have hread := Mem.read_write_append (m := buff) hone
    rw [List.length_singleton] at hread
    have hget : (buff.write k [c]).get k = .ok c := by
      rw [Mem.get, Mem.getElem?_write hone, if_pos (by simp), Nat.sub_self]
      rfl
    by_cases h91 : c = 91
    · subst h91
      refine ⟨⟨(buff.write k [91]).write k [0], pos+1, k, k, 0⟩, loop_done ?_, rfl, ?_, ?_⟩
      · rw [readSectionBody, if_pos hk']
        simp only [hc, Mem.store_get_ok hlt, ok_bind, hget, if_true]
        rfl
      · rw [List.takeWhile_cons_of_neg (by simp)]
        rfl
      · rw [List.takeWhile_cons_of_neg (by simp), List.append_nil]
        have h1 : ((buff.write k [91]).write k [0]).read 0 k = (buff.write k [91]).read 0 k :=
          Mem.read_write_before (by omega)
        have h2 : (buff.write k [91]).read 0 k = buff.read 0 k := Mem.read_write_before (by omega)
        exact h1.trans h2
    · have hbody : readSectionBody file ⟨buff, pos, k, len, 0⟩ =
          .ok (.again ⟨buff.write k [c], pos+1, k+1, len, 0⟩) := by
        rw [readSectionBody, if_pos hk']
        simp only [hc, Mem.store_get_ok hlt, ok_bind, hget, if_neg h91]
        rfl
      obtain ⟨r, hr, hret, hlen, hbuf⟩ := ih len fuel (buff.write k [c]) hd'
        (show k+1+cs.length < file.length by omega) (show cs.length < fuel by omega)
      refine ⟨r, by rw [loop_again hbody, hr], hret, ?_, ?_⟩
      · rw [List.takeWhile_cons_of_pos (by simpa using h91), List.length_cons, hlen]
        omega
      · rw [List.takeWhile_cons_of_pos (by simpa using h91), hbuf, hread]
        simp

/-- The loop of `snsd_find_section` from any point. -/
theorem findSection_loop {file : Bytes} (name cs : Bytes) : ∀ {pos : ℕ} (fuel : ℕ)
    (s : FindRead (file.length+1)), file.drop pos = cs → s.pos = pos → cs.length < fuel →
    ∃ r, loop (findSectionBody file name) fuel s = .ok r ∧
      (sectionText name cs = none → r.ret ≠ 0) ∧
      ∀ t, sectionText name cs = some t → r.ret = 0 ∧ r.len = t.length ∧ r.buff.read 0 r.len = t := by
  -- a name takes more than one character at once
  induction hn : cs.length using Nat.strong_induction_on generalizing cs with
  | _ n ih =>
  intro pos fuel s hd hpos hf
  obtain ⟨fuel, rfl⟩ := Nat.exists_eq_succ_of_ne_zero (Nat.ne_zero_of_lt hf)
  subst hpos
  rcases cs with _ | ⟨c, cs⟩
  · refine ⟨{ s with ret := - EIO }, loop_done ?_, fun _ => by simp [ EIO], fun t ht => ?_⟩
    · rw [findSectionBody]
      simp only [getElem?_of_drop_nil hd]
      rfl
    · rw [sectionText] at ht
      simp at ht
  obtain ⟨hc, hd'⟩ := getElem?_of_drop hd
  rw [List.length_cons] at hn
  by_cases h91 : c = 91
  case neg =>
    have hbody : findSectionBody file name s = .ok (.again { s with pos := s.pos+1 }) := by
      rw [findSectionBody]
      simp only [hc]
      rw [if_pos h91]
      rfl
    obtain ⟨r, hr, hrest⟩ := ih cs.length (by omega) cs rfl fuel { s with pos := s.pos+1 } hd' rfl
      (by omega)
    rw [sectionText, if_neg h91]
    exact ⟨r, by rw [loop_again hbody, hr], hrest⟩
  obtain ⟨q, hq, hin, hout⟩ := readSectionName_eq s.name hd'
  by_cases h93 : 93 ∈ cs.take SNSD_MAX_SECTION_NAME_LEN
  case neg =>
    refine ⟨{ s with name := q.buf, pos := q.pos, ret := q.ret }, loop_done ?_,
      fun _ => hout h93, fun t ht => ?_⟩
    · rw [findSectionBody]
      simp only [hc]
      rw [if_neg (not_not.mpr h91), hq]
      simp only [ok_bind, if_pos (hout h93)]
      rfl
    · rw [sectionText, if_pos h91, if_neg h93] at ht
      simp at ht
  obtain ⟨hret, hqpos, hname⟩ := hin h93
  have hlen := afterName_length_le cs
  by_cases hnm : (cs.takeWhile (· != 93)).takeWhile (· != 0) = name
  case neg =>
    have hbody : findSectionBody file name s =
        .ok (.again { s with name := q.buf, pos := q.pos }) := by
      rw [findSectionBody]
      simp only [hc]
      rw [if_neg (not_not.mpr h91), hq]
      simp only [ok_bind, hret, ne_eq, not_true_eq_false, if_false]
      rw [if_pos (by rw [hname]; exact hnm)]
      rfl
    obtain ⟨r, hr, hrest⟩ := ih (afterName cs).length (by omega) (afterName cs) rfl fuel
      { s with name := q.buf, pos := q.pos } hqpos rfl (by omega)
    rw [sectionText, if_pos h91, if_pos h93, if_neg hnm]
    exact ⟨r, by rw [loop_again hbody, hr], hrest⟩
  -- the section is here
  have hroom : 0+(afterName cs).length < file.length := by
    have hf := congrArg List.length hd
    rw [List.length_drop, List.length_cons] at hf
    omega
  obtain ⟨r, hr, hrret, hrlen, hrbuf⟩ := readSection_loop (afterName cs) s.len (file.length+1)
    s.buff hqpos hroom (by omega)
  have h0 : s.buff.read 0 0 = [] := List.length_eq_zero_iff.mp (by rw [Mem.read_length]; simp)
  rw [h0, List.nil_append] at hrbuf
  rw [sectionText, if_pos h91, if_pos h93, if_pos hnm]
  refine ⟨⟨q.buf, r.buff, r.pos, r.len, r.ret⟩, loop_done ?_, fun h => ?_, fun t ht => ?_⟩
  · rw [findSectionBody]
    simp only [hc]
    rw [if_neg (not_not.mpr h91), hq]
    simp only [ok_bind, hret, ne_eq, not_true_eq_false, if_false]
    rw [if_neg (by rw [hname]; exact not_not.mpr hnm), snsdReadSection, hr]
    rfl
  · simp at h
  · obtain rfl := Option.some.inj ht
    exact ⟨hrret, by rw [hrlen, Nat.zero_add], hrbuf⟩

/-- Loading a section gives its text, in a buffer with room behind it. -/
theorem sectionLoad_eq {file : Bytes} (name : Bytes) (hl : file.length < SNSD_CFG_FILE_MAX_SIZE) :
    (sectionText name file = none → snsdSectionLoad file name = .ok none) ∧
      ∀ t, sectionText name file = some t →
        ∃ buf, snsdSectionLoad file name = .ok (some (buf, t.length)) ∧ At buf t.length 0 t := by
  obtain ⟨r, hr, hnone, hsome⟩ := findSection_loop name file (file.length+1)
    ⟨Mem.zero _, Mem.zero (file.length+1), 0, 0, 0⟩ List.drop_zero rfl (Nat.lt_succ_self _)
  constructor
  · intro h
    rw [snsdSectionLoad, if_neg (Nat.not_le_of_lt hl), snsdFindSection, hr]
    simp only [ok_bind, if_pos (hnone h)]
    rfl
  · intro t ht
    obtain ⟨hret, hlen, hbuf⟩ := hsome t ht
    rw [hlen] at hbuf
    refine ⟨r.buff, ?_, At.of_read ?_ hbuf⟩
    · rw [snsdSectionLoad, if_neg (Nat.not_le_of_lt hl), snsdFindSection, hr]
      simp only [ok_bind, hret, ne_eq, not_true_eq_false, if_false, hlen]
      rfl
    · have hs := congrArg List.length hbuf
      rw [Mem.read_length] at hs
      omega

/-! The blanks. -/

/-- The characters that have the blanks on both of their sides taken away; an end
of line is among them. -/
def isMark (b : UInt8) : Bool := b == 61 || b == 13 || b == 10 || b == 124

def trimEnd (t : Bytes) : Bytes := t.rdropWhile (· == 32)

/-- What one character adds to the text; the flag says that nothing but blanks
came since the last mark. -/
def blankStep (s : Bytes × Bool) (c : UInt8) : Bytes × Bool :=
  if isMark c then (trimEnd s.1 ++ [c], true)
  else if !isSpace c then (s.1 ++ [c], false)
  else if s.2 = false then (s.1 ++ [c], false)
  else s

def blankFree (t : Bytes) : Bytes := (t.foldl blankStep ([], true)).1

theorem trimEnd_length_le (t : Bytes) : (trimEnd t).length ≤ t.length :=
  (List.rdropWhile_prefix _ _).length_le

theorem blankStep_length_le (s : Bytes × Bool) (c : UInt8) :
    (blankStep s c).1.length ≤ s.1.length+1 := by
  have ht := trimEnd_length_le s.1
  have happ : ∀ a : Bytes, (a ++ [c]).length = a.length+1 := by
    intro a
    rw [List.length_append, List.length_singleton]
  rw [blankStep]
  split_ifs
  · rw [happ]
    omega
  · exact (happ _).le
  · exact (happ _).le
  · exact Nat.le_succ _

/-- `snsd_ignore_blank_before_end` -/
theorem ignoreBlank_eq {n : ℕ} {buf : Mem n} (t : Bytes) (h : buf.read 0 t.length = t) :
    snsdIgnoreBlankBeforeEnd buf t.length = .ok (trimEnd t).length := by
  induction t using List.reverseRecOn with
  | nil => rfl
  | append_singleton t b ih =>
    have hlen : (t ++ [b]).length = t.length+1 := by
      rw [List.length_append, List.length_singleton]
    have hle : (t ++ [b]).length ≤ n := by
      have hl := congrArg List.length h
      rw [Mem.read_length] at hl
      omega
    have hget : buf.get t.length = .ok b := by
      obtain ⟨pre, tail, hm, hp, -⟩ := (At.of_read hle h).eq
      rw [List.length_eq_zero_iff.mp hp, List.nil_append, List.append_assoc,
        List.singleton_append] at hm
      exact Mem.get_of_eq hm
    rw [hlen, snsdIgnoreBlankBeforeEnd, hget]
    simp only [ok_bind, trimEnd]
    by_cases hb : b = 32
    · rw [if_pos hb, List.rdropWhile_concat_pos _ _ _ (by simpa using hb)]
      exact ih (Mem.read_prefix h)
    · rw [if_neg hb, List.rdropWhile_concat_neg _ _ _ (by simpa using hb), hlen]
      rfl

/-- One pass of `snsd_del_blank` over the character `c`. -/
theorem delBlankBody_eq {n k len i : ℕ} {buf : Mem n} {tmp : Mem k} {c : UInt8} {cs t : Bytes}
    (flag : Bool) (hat : At buf len i (c :: cs)) (hr : tmp.read 0 t.length = t)
    (hroom : t.length < k) :
    ∃ tmp', delBlankBody buf len ⟨tmp, i, t.length, flag⟩ =
        .ok (.again ⟨tmp', i+1, (blankStep (t, flag) c).1.length, (blankStep (t, flag) c).2⟩) ∧
      tmp'.read 0 (blankStep (t, flag) c).1.length = (blankStep (t, flag) c).1 := by
  have hread : ∀ u : Bytes, tmp.read 0 u.length = u → u.length < k →
      (tmp.write u.length [c]).read 0 (u ++ [c]).length = u ++ [c] := by
    intro u hu hk
    have hw := Mem.read_write_append (m := tmp) (s := [c]) (o := u.length) hk
    rw [hu] at hw
    rw [List.length_append]
    exact hw
  have hbody : delBlankBody buf len ⟨tmp, i, t.length, flag⟩ = (do
      if !isSpace c && c != 61 && c != 124 then
        let tmpBuf ← tmp.store t.length [c]
        return .again ⟨tmpBuf, i+1, t.length+1, false⟩
      else if c == 61 || c == 13 || c == 10 || c == 124 then
        let pos ← snsdIgnoreBlankBeforeEnd tmp t.length
        let tmpBuf ← tmp.store pos [c]
        return .again ⟨tmpBuf, i+1, pos+1, true⟩
      else if flag = false then
        let tmpBuf ← tmp.store t.length [c]
        return .again ⟨tmpBuf, i+1, t.length+1, flag⟩
      else return .again ⟨tmp, i+1, t.length, flag⟩) := by
    rw [delBlankBody, if_pos hat.lt, hat.get]
    rfl
  rw [hbody, blankStep]
  by_cases hm : isMark c = true
  · -- a mark: the blanks before it go
    have hnot : (!isSpace c && c != 61 && c != 124) = false := by
      simp only [isMark, Bool.or_eq_true, beq_iff_eq] at hm
      rcases hm with ((rfl | rfl) | rfl) | rfl <;> decide
    have htrim : (trimEnd t).length < k := Nat.lt_of_le_of_lt (trimEnd_length_le t) hroom
    have hpre : tmp.read 0 (trimEnd t).length = trimEnd t := by
      obtain ⟨rest, hrest⟩ := List.rdropWhile_prefix (· == 32) t
      apply Mem.read_prefix (b := rest) (k := t.length)
      rw [hr]
      exact hrest.symm
    refine ⟨tmp.write (trimEnd t).length [c], ?_, ?_⟩
    · rw [hnot, if_neg (by decide), if_pos (by simpa only [isMark] using hm), ignoreBlank_eq t hr,
        if_pos hm]
      simp only [ok_bind, Mem.store_get_ok htrim, List.length_append, List.length_singleton]
      rfl
    · rw [if_pos hm]
      exact hread _ hpre htrim
  · rw [if_neg hm]
    have hmark : (c == 61 || c == 13 || c == 10 || c == 124) = false := by
      simpa only [isMark, Bool.not_eq_true] using hm
    by_cases hs : isSpace c = true
    · cases flag with
      | false =>
        refine ⟨tmp.write t.length [c], ?_, ?_⟩
        · simp only [hmark, hs, Bool.not_true, Bool.false_eq_true, if_false, if_true,
            Mem.store_get_ok hroom, ok_bind, List.length_append, List.length_singleton]
          rfl
        · simp only [hs, Bool.not_true, Bool.false_eq_true, if_false, if_true]
          exact hread t hr hroom
      | true =>
        refine ⟨tmp, ?_, ?_⟩
        · simp only [hmark, hs, Bool.not_true, Bool.false_eq_true, Bool.true_eq_false, if_false]
          rfl
        · simp only [hs, Bool.not_true, Bool.false_eq_true, Bool.true_eq_false, if_false]
          exact hr
    · have hyes : (!isSpace c && c != 61 && c != 124) = true := by
        simp only [isMark, Bool.or_eq_true, beq_iff_eq, not_or] at hm
        simp [hs, hm.1.1.1, hm.2]
      have hs' : (!isSpace c) = true := by simpa using hs
      refine ⟨tmp.write t.length [c], ?_, ?_⟩
      · rw [hyes, if_pos rfl, if_pos hs']
        simp only [Mem.store_get_ok hroom, ok_bind, List.length_append, List.length_singleton]
        rfl
      · rw [if_pos hs']
        exact hread t hr hroom

theorem delBlank_loop {n k len : ℕ} {buf : Mem n} (cs : Bytes) : ∀ {i : ℕ} (fuel : ℕ) (tmp : Mem k)
    (t : Bytes) (flag : Bool), At buf len i cs → tmp.read 0 t.length = t → t.length+cs.length < k →
    cs.length < fuel →
    ∃ s, loop (delBlankBody buf len) fuel ⟨tmp, i, t.length, flag⟩ = .ok s ∧
      s.pos = (cs.foldl blankStep (t, flag)).1.length ∧
      s.tmpBuf.read 0 s.pos = (cs.foldl blankStep (t, flag)).1 := by
  induction cs with
  | nil =>
    intro i fuel tmp t flag hat hr _ hf
    obtain ⟨fuel, rfl⟩ := Nat.exists_eq_succ_of_ne_zero (Nat.ne_zero_of_lt hf)
    refine ⟨⟨tmp, i, t.length, flag⟩, loop_done ?_, rfl, hr⟩
    rw [delBlankBody, if_neg (by rw [hat.eq_size]; exact Nat.lt_irrefl _)]
    rfl
  | cons c cs ih =>
    intro i fuel tmp t flag hat hr hk hf
    obtain ⟨fuel, rfl⟩ := Nat.exists_eq_succ_of_ne_zero (Nat.ne_zero_of_lt hf)
    rw [List.length_cons] at hk hf
    obtain ⟨tmp', hbody, hread⟩ := delBlankBody_eq flag hat hr (by omega)
    have hle := blankStep_length_le (t, flag) c
    obtain ⟨s, hs, hpos, hbuf⟩ := ih fuel tmp' (blankStep (t, flag) c).1 (blankStep (t, flag) c).2
      hat.next hread (by simp only at hle; omega) (by omega)
    exact ⟨s, by rw [loop_again hbody, hs], hpos, hbuf⟩

theorem foldl_blankStep_length_le (cs t : Bytes) (flag : Bool) :
    (cs.foldl blankStep (t, flag)).1.length ≤ t.length+cs.length := by
  induction cs generalizing t flag with
  | nil => exact le_rfl
  | cons c cs ih =>
    have hstep := blankStep_length_le (t, flag) c
    have hrest : (cs.foldl blankStep (blankStep (t, flag) c)).1.length ≤
        (blankStep (t, flag) c).1.length+cs.length := ih _ _
    rw [List.foldl_cons, List.length_cons]
    simp only at hstep
    omega

theorem blankFree_length_le (t : Bytes) : (blankFree t).length ≤ t.length := by
  have h := foldl_blankStep_length_le t [] true
  rwa [List.length_nil, Nat.zero_add] at h

/-- Taking the blanks out of a section, in its buffer. -/
theorem delBlank_eq {n : ℕ} {buf : Mem n} {t : Bytes} (hat : At buf t.length 0 t) :
    ∃ buf', snsdDelBlank buf t.length = .ok (buf', (blankFree t).length) ∧
      At buf' (blankFree t).length 0 (blankFree t) := by
  have hle := blankFree_length_le t
  have hn := hat.le
  obtain ⟨s, hs, hpos, hbuf⟩ := delBlank_loop (k := t.length+1) t (t.length+1) (Mem.zero _) [] true hat
    (List.length_eq_zero_iff.mp (by rw [Mem.read_length]; simp)) (by simp) (Nat.lt_succ_self _)
  change loop (delBlankBody buf t.length) (t.length+1) ⟨Mem.zero _, 0, 0, true⟩ = .ok s at hs
  change s.pos = (blankFree t).length at hpos
  change s.tmpBuf.read 0 s.pos = blankFree t at hbuf
  rw [hpos] at hbuf
  have hzero : 0+(List.replicate t.length (0 : UInt8)).length ≤ n := by
    rw [List.length_replicate]
    omega
  have hcopy : 0+s.pos ≤ (s.tmpBuf.bytes).length := by
    rw [s.tmpBuf.size]
    omega
  have hload : (s.tmpBuf.bytes.drop 0).take s.pos = blankFree t := by
    rw [hpos]
    exact hbuf
  refine ⟨(buf.write 0 (List.replicate t.length 0)).write 0 (blankFree t), ?_, At.of_read ?_ ?_⟩
  · rw [snsdDelBlank]
    simp only [hs, ok_bind, Mem.store_ok hzero]
    rw [Mem.memcpy_ok hcopy (by omega), hload, hpos]
    rfl
  · omega
  · have hw := Mem.read_write (m := buf.write 0 (List.replicate t.length 0)) (o := 0)
      (s := blankFree t) (by omega)
    exact hw

end NvmeSnsd.Cfg
