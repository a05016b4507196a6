import NvmeSnsd.Cfg.SectionSpec
import NvmeSnsd.Cfg.Parse

/-! What parsing a section comes to, line by line and item by item. -/
namespace NvmeSnsd.Cfg
open Lib

/-! A section as a list of lines. -/

/-- What is not an end of line. -/
def inLine (b : UInt8) : Bool := !isNl b

theorem isNl_of_dropWhile {t rest : Bytes} {b : UInt8} (h : t.dropWhile inLine = b :: rest) :
    isNl b = true := by
  have hb := List.head?_dropWhile_not inLine t
  rw [h] at hb
  simpa [inLine] using hb

/-- The lines that hold items, each from its first character that is no blank. -/
def itemLines : Bytes → List Bytes
  | [] => []
  | c :: cs =>
    if isSpace c then itemLines cs
    else if c = 59 then itemLines (cs.dropWhile inLine)
    else (c :: cs.takeWhile inLine) :: itemLines (cs.dropWhile inLine)
  termination_by t => t.length
  decreasing_by
  · exact Nat.lt_succ_self _
  · exact Nat.lt_succ_of_le (List.length_dropWhile_le _ _)
  · exact Nat.lt_succ_of_le (List.length_dropWhile_le _ _)

theorem itemLines_space {c : UInt8} (cs : Bytes) (h : isSpace c = true) :
    itemLines (c :: cs) = itemLines cs := by
  rw [itemLines, if_pos h]

theorem itemLines_dropWhile (t : Bytes) : itemLines (t.dropWhile isSpace) = itemLines t := by
  induction t with
  | nil => rfl
  | cons c t ih =>
    cases h : isSpace c with
    | true => rw [List.dropWhile_cons_of_pos h, ih, itemLines_space t h]
    | false => rw [List.dropWhile_cons_of_neg (by simp [h])]

/-! An item of a line. -/

/-- Blanks with nothing behind them. -/
def allBlank (text : Bytes) : Bool := !text.isEmpty && text.all isSpace

/-- A word, and what is left behind it. -/
def wordOf (text : Bytes) : Option (Bytes × Bytes) :=
  let r := text.dropWhile isSpace
  if allBlank text then none
  else some (r.takeWhile fun b => !isWordEnd b, r.dropWhile fun b => !isWordEnd b)

/-- The name and the value of an item. -/
def itemOf (part : Bytes) : Option (Bytes × Bytes) :=
  (wordOf part).bind fun (name, r) =>
    if (r.dropWhile isBlank).head? = some 61 then
      (wordOf (r.dropWhile isBlank).tail).map fun (value, _) => (name, value)
    else none

def runItem (o : Outside) (sectionName part : Bytes) (s : CfgState) :
    Except Fault (CfgState × ℤ) :=
  match itemOf part with
  | none => .ok (s, -EPERM)
  | some (name, value) => do
    let (s, ret) ← snsdSaveOneItem o sectionName name value s
    return (s, if ret ≠ 0 then -EPERM else 0)

/-- The items of a line, up to the first that is rejected. -/
def runParts (o : Outside) (sectionName : Bytes) : List Bytes → CfgState →
    Except Fault (CfgState × ℤ)
  | [], s => .ok (s, 0)
  | part :: parts, s =>
    if SNSD_CFG_NAME_MAX_LEN < part.length then .ok (s, -ENOMEM)
    else do
      let (s, ret) ← runItem o sectionName part s
      if ret ≠ 0 then return (s, ret)
      runParts o sectionName parts s

/-- The string that the copy of a line holds. -/
def lineText (line : Bytes) : Bytes := line.takeWhile (· != 0)

/-- A line: the defaults, the items, and the entry that they make. -/
def runLine (o : Outside) (sectionName line : Bytes) (s : CfgState) :
    Except Fault (CfgState × ℤ) := do
  let (s, ret) ← runParts o sectionName ((lineText line).splitOn 124) (snsdInitCfg s)
  if ret ≠ 0 then return (s, -EPERM)
  let (s, ret) := snsdAddOneCfg sectionName s
  if ret ≠ 0 then return (s, -EPERM)
  return (s, 0)

/-- The lines, up to the first that is rejected. A line that does not fit
`tmp_line` with its terminator is written past its end. -/
def runLines (o : Outside) (sectionName : Bytes) : List Bytes → CfgState →
    Except Fault (CfgState × ℤ)
  | [], s => .ok (s, 0)
  | line :: lines, s =>
    if line.length ≥ SNSD_CFG_VALUE_MAX_LEN then .error (.store SNSD_CFG_VALUE_MAX_LEN 1 SNSD_CFG_VALUE_MAX_LEN)
    else do
      let (s, ret) ← runLine o sectionName line s
      if ret ≠ 0 then return (s, -EPERM)
      runLines o sectionName lines s

/-! Words. -/

section Words
variable {n k : ℕ} {buf : Mem n} {text : Bytes}

/-- The blanks before a word. -/
theorem wordBlank_loop (text : Bytes) : ∀ {pos : ℕ} (len fuel : ℕ), Str buf pos text →
    pos+text.length = len → text.length < fuel →
    loop (wordBlankBody buf len) fuel (pos, false) =
      .ok (pos+(text.takeWhile isSpace).length, allBlank text) := by
  induction text with
  | nil =>
    intro pos len fuel hs hl hf
    obtain ⟨fuel, rfl⟩ := Nat.exists_eq_succ_of_ne_zero (Nat.ne_zero_of_lt hf)
    apply loop_done
    rw [wordBlankBody, hs.get]
    rfl
  | cons c text ih =>
    intro pos len fuel hs hl hf
    obtain ⟨fuel, rfl⟩ := Nat.exists_eq_succ_of_ne_zero (Nat.ne_zero_of_lt hf)
    rw [List.length_cons] at hl hf
    cases hsp : isSpace c with
    | false =>
      have hblank : allBlank (c :: text) = false := by simp [allBlank, hsp]
      rw [List.takeWhile_cons_of_neg (by simp [hsp]), hblank]
      apply loop_done
      rw [wordBlankBody, hs.get]
      simp only [List.headD_cons, ok_bind, hsp]
      rfl
    | true =>
      rw [List.takeWhile_cons_of_pos hsp]
      rcases text with _ | ⟨d, text⟩
      · -- the blanks run into the end
        rw [List.length_nil] at hl
        have hend : pos+1 ≥ len := by omega
        have hblank : allBlank [c] = true := by simp [allBlank, hsp]
        rw [hblank]
        apply loop_done
        rw [wordBlankBody, hs.get]
        simp only [List.headD_cons, ok_bind, hsp, if_true, if_pos hend]
        rfl
      · have hlt : ¬pos+1 ≥ len := by
          rw [List.length_cons] at hl
          omega
        have hd0 : d ≠ 0 := by
          rintro rfl
          exact hs.noNul (by simp)
        by_cases hd : d = 59
        · -- a word end stops the blanks at once
          subst hd
          have h59 : isSpace 59 = false := by decide
          have hblank : allBlank (c :: 59 :: text) = false := by simp [allBlank, h59]
          rw [hblank, List.takeWhile_cons_of_neg (by simp [h59])]
          apply loop_done
          rw [wordBlankBody, hs.get]
          simp only [List.headD_cons, ok_bind, hsp, if_true, if_neg hlt, hs.next.get, or_true]
          rfl
        · have hbody : wordBlankBody buf len (pos, false) = .ok (.again (pos+1, false)) := by
            rw [wordBlankBody, hs.get]
            simp only [List.headD_cons, ok_bind, hsp, if_true, if_neg hlt, hs.next.get, hd0, hd,
              or_self, if_false]
            rfl
          have hblank : allBlank (c :: d :: text) = allBlank (d :: text) := by simp [allBlank, hsp]
          rw [loop_again hbody, ih len fuel hs.next (by omega) (by omega), List.length_cons, hblank,
            Nat.add_right_comm, Nat.add_assoc]

/-- The copying of a word, which has the room. -/
theorem word_loop (text : Bytes) : ∀ {pos : ℕ} (len fuel : ℕ) (temp : Mem k) (w : Bytes) (ret : ℤ),
    Str buf pos text → pos+text.length = len → text.length < fuel → w.length+text.length < k →
    temp.read 0 w.length = w →
    ∃ t, loop (wordBody buf len) fuel ⟨temp, w.length, pos, ret⟩ = .ok ⟨t,
        (w ++ text.takeWhile fun b => !isWordEnd b).length,
        pos+(text.takeWhile fun b => !isWordEnd b).length, ret⟩ ∧
      t.read 0 (w ++ text.takeWhile fun b => !isWordEnd b).length =
        w ++ text.takeWhile fun b => !isWordEnd b := by
  induction text with
  | nil =>
    intro pos len fuel temp w ret hs hl hf hk hr
    obtain ⟨fuel, rfl⟩ := Nat.exists_eq_succ_of_ne_zero (Nat.ne_zero_of_lt hf)
    rw [List.takeWhile_nil, List.append_nil]
    refine ⟨temp, loop_done ?_, hr⟩
    rw [List.length_nil] at hl
    rw [wordBody, if_neg (by simp only; omega)]
    rfl
  | cons c text ih =>
    intro pos len fuel temp w ret hs hl hf hk hr
    obtain ⟨fuel, rfl⟩ := Nat.exists_eq_succ_of_ne_zero (Nat.ne_zero_of_lt hf)
    rw [List.length_cons] at hl hf hk
    have hpos : pos < len := by omega
    cases he : isWordEnd c with
    | true =>
      rw [List.takeWhile_cons_of_neg (by simp [he]), List.append_nil]
      refine ⟨temp, loop_done ?_, hr⟩
      rw [wordBody, if_pos hpos, hs.get]
      simp only [List.headD_cons, ok_bind, he, if_true]
      rfl
    | false =>
      have hroom : w.length < k := by omega
      have hbody : wordBody buf len ⟨temp, w.length, pos, ret⟩ =
          .ok (.again ⟨temp.write w.length [c], w.length+1, pos+1, ret⟩) := by
        have hnot : ¬w.length+1 ≥ k := by omega
        rw [wordBody, if_pos hpos, hs.get]
        simp only [List.headD_cons, ok_bind, he, Mem.store_get_ok hroom, if_neg hnot]
        rfl
      have hlen : (w ++ [c]).length = w.length+1 := by
        rw [List.length_append, List.length_singleton]
      have hread : (temp.write w.length [c]).read 0 (w ++ [c]).length = w ++ [c] := by
        have hw := Mem.read_write_append (m := temp) (s := [c]) (o := w.length) hroom
        rw [hr] at hw
        rw [hlen]
        exact hw
      obtain ⟨t, ht, hbuf⟩ := ih len fuel (temp.write w.length [c]) (w ++ [c]) ret hs.next
        (by omega) (by omega) (by rw [hlen]; omega) hread
      rw [hlen] at ht
      rw [List.takeWhile_cons_of_pos (by simp [he]), List.append_cons, List.length_cons]
      refine ⟨t, ?_, hbuf⟩
      rw [loop_again hbody, ht]
      congr 2
      omega

/-- `snsd_get_value_word` on a string that is shorter than the room for it. -/
theorem getValueWord_eq {pos len : ℕ} (temp : Mem k) (hs : Str buf pos text)
    (hl : pos+text.length = len) (hk : text.length < k) :
    ∃ t, snsdGetValueWord buf pos temp len = .ok t ∧
      (wordOf text = none → t.ret = SNSD_CFG_SECTION_END) ∧
      ∀ w r, wordOf text = some (w, r) → t.ret = SNSD_CFG_ITEM_END ∧ t.temp.cstr 0 = .ok w ∧
        Str buf t.offset r ∧ t.offset+r.length = len := by
  have hblank := wordBlank_loop text len (len+1) hs hl (by omega)
  have hsplit : text.takeWhile isSpace ++ text.dropWhile isSpace = text :=
    List.takeWhile_append_dropWhile
  have hlen := congrArg List.length hsplit
  rw [List.length_append] at hlen
  cases hb : allBlank text with
  | true =>
    refine ⟨⟨temp, 0, pos+(text.takeWhile isSpace).length, SNSD_CFG_SECTION_END⟩, ?_, fun _ => rfl,
      fun w r hw => ?_⟩
    · rw [snsdGetValueWord, hblank]
      simp only [ok_bind, hb, if_true]
      rfl
    · simp [wordOf, hb] at hw
  | false =>
    have hs' : Str buf (pos+(text.takeWhile isSpace).length) (text.dropWhile isSpace) := by
      rw [← hsplit] at hs
      exact hs.skip
    have h0 : temp.read 0 ([] : Bytes).length = [] :=
      List.length_eq_zero_iff.mp (by rw [Mem.read_length]; simp)
    obtain ⟨t, ht, hbuf⟩ := word_loop (text.dropWhile isSpace) len (len+1) temp []
      SNSD_CFG_ITEM_END hs' (by omega) (by omega) (by rw [List.length_nil]; omega) h0
    rw [List.nil_append] at ht hbuf
    have hw : wordOf text = some ((text.dropWhile isSpace).takeWhile fun b => !isWordEnd b,
        (text.dropWhile isSpace).dropWhile fun b => !isWordEnd b) := by
      simp [wordOf, hb]
    generalize text.dropWhile isSpace = u at *
    have hsplit' : u.takeWhile (fun b => !isWordEnd b) ++ u.dropWhile (fun b => !isWordEnd b) = u :=
      List.takeWhile_append_dropWhile
    have hlen' := congrArg List.length hsplit'
    rw [List.length_append] at hlen'
    have hroom : (u.takeWhile fun b => !isWordEnd b).length < k := by omega
    have h0w : 0 ∉ u.takeWhile fun b => !isWordEnd b := by
      intro h0
      have hne := List.mem_takeWhile_imp h0
      simp [isWordEnd] at hne
    refine ⟨⟨t.write (u.takeWhile fun b => !isWordEnd b).length [0],
      (u.takeWhile fun b => !isWordEnd b).length, pos+(text.takeWhile isSpace).length+
      (u.takeWhile fun b => !isWordEnd b).length, SNSD_CFG_ITEM_END⟩, ?_, fun h => ?_, ?_⟩
    · rw [snsdGetValueWord, hblank]
      simp only [ok_bind, hb, Bool.false_eq_true, if_false]
      change loop (wordBody buf len) (len+1) ⟨temp, 0, _, SNSD_CFG_ITEM_END⟩ = _ at ht
      simp only [ht, ok_bind, ne_eq, not_true_eq_false, if_false, Mem.store_get_ok hroom]
      rfl
    · rw [hw] at h
      simp at h
    · rintro w r hwr
      rw [hw] at hwr
      obtain ⟨rfl, rfl⟩ := Prod.mk.inj (Option.some.inj hwr)
      refine ⟨rfl, ?_, ?_, ?_⟩
      · apply Mem.cstr_of_read h0w
        have hread := Mem.read_write_append (m := t) (s := [0]) hroom
        rw [hbuf] at hread
        exact hread
      · rw [← hsplit'] at hs'
        exact hs'.skip
      · simp only
        omega

end Words

/-! Items. -/

section Items
variable (o : Outside) (sectionName : Bytes) {part : Bytes}
  {tmpInfo : Mem (SNSD_CFG_NAME_MAX_LEN+1)}

theorem getItemInfo_eq (hs : Str tmpInfo 0 part) (hl : part.length ≤ SNSD_CFG_NAME_MAX_LEN)
    (s : ParseState) : ∃ item, snsdGetItemInfo o sectionName tmpInfo s =
      (runItem o sectionName part s.cfg).map fun r => (⟨item, r.1⟩, r.2) := by
  have hlen : part.length < SNSD_CFG_NAME_MAX_LEN+1 := Nat.lt_succ_of_le hl
  obtain ⟨w, hw, hwnone, hwsome⟩ := getValueWord_eq s.item.name hs (Nat.zero_add _) hlen
  have hne : SNSD_CFG_SECTION_END ≠ SNSD_CFG_ITEM_END := by decide
  cases h1 : wordOf part with
  | none =>
    have hi : itemOf part = none := by rw [itemOf, h1]; rfl
    refine ⟨{ s.item with name := w.temp }, ?_⟩
    have hret : w.ret ≠ SNSD_CFG_ITEM_END := by
      rw [hwnone h1]
      exact hne
    rw [snsdGetItemInfo, runItem, hi]
    simp only [hs.cstr, hw, ok_bind, if_pos hret]
    rfl
  | some p1 =>
    obtain ⟨name, r⟩ := p1
    obtain ⟨hret, hname, hstr, hoff⟩ := hwsome name r h1
    have hskip := hstr.skipWhile_eq (p := isBlank) (by decide)
    have hstr' := hstr.dropWhile isBlank
    have hget := hstr'.get
    by_cases heq : (r.dropWhile isBlank).head? = some 61
    case neg =>
      have hi : itemOf part = none := by
        rw [itemOf, h1]
        simp only [Option.bind_some, if_neg heq]
      have h61 : (r.dropWhile isBlank).headD 0 ≠ 61 := by
        intro h
        apply heq
        rcases hr : r.dropWhile isBlank with _ | ⟨b, u⟩
        · rw [hr] at h
          simp at h
        · rw [hr, List.headD_cons] at h
          rw [h, List.head?_cons]
      refine ⟨{ s.item with name := w.temp }, ?_⟩
      rw [snsdGetItemInfo, runItem, hi]
      simp only [hs.cstr, hw, ok_bind, hret, ne_eq, not_true_eq_false, if_false, hskip, hget]
      rw [if_pos h61]
      rfl
    obtain ⟨u, hu⟩ : ∃ u, r.dropWhile isBlank = 61 :: u := by
      rcases hr : r.dropWhile isBlank with _ | ⟨b, u⟩
      · rw [hr] at heq
        simp at heq
      · rw [hr, List.head?_cons] at heq
        exact ⟨u, by rw [Option.some.inj heq]⟩
    rw [hu] at hstr' hget
    have hul : u.length+1 ≤ r.length := by
      have hle := List.length_dropWhile_le isBlank r
      rw [hu, List.length_cons] at hle
      exact hle
    have hpos : w.offset+(r.takeWhile isBlank).length+1+u.length = part.length := by
      have hsplit := congrArg List.length (List.takeWhile_append_dropWhile (p := isBlank) (l := r))
      rw [List.length_append, hu, List.length_cons] at hsplit
      omega
    have hul' : u.length < SNSD_CFG_VALUE_MAX_LEN+1 := by
      have h127 : SNSD_CFG_NAME_MAX_LEN = 127 := rfl
      have h1023 : SNSD_CFG_VALUE_MAX_LEN = 1023 := rfl
      omega
    obtain ⟨v, hv, hvnone, hvsome⟩ := getValueWord_eq s.item.value hstr'.next hpos hul'
    rw [List.headD_cons] at hget
    refine ⟨⟨w.temp, v.temp⟩, ?_⟩
    have hi : itemOf part = (wordOf u).map fun p => (name, p.1) := by
      rw [itemOf, h1]
      simp only [Option.bind_some, hu, List.head?_cons, if_true, List.tail_cons]
    cases h2 : wordOf u with
    | none =>
      have hret' : v.ret ≠ SNSD_CFG_ITEM_END := by
        rw [hvnone h2]
        exact hne
      rw [snsdGetItemInfo, runItem, hi, h2]
      simp only [hs.cstr, hw, ok_bind, hret, ne_eq, not_true_eq_false, if_false, hskip, hget, hv,
        if_pos hret']
      rfl
    | some p2 =>
      obtain ⟨value, r2⟩ := p2
      obtain ⟨hret', hvalue, -, -⟩ := hvsome value r2 h2
      rw [snsdGetItemInfo, runItem, hi, h2]
      simp only [hs.cstr, hw, ok_bind, hret, ne_eq, not_true_eq_false, if_false, hskip, hget, hv,
        hret', hname, hvalue, Option.map_some]
      cases snsdSaveOneItem o sectionName name value s.cfg with
      | error e => rfl
      | ok q =>
        obtain ⟨c, ret⟩ := q
        by_cases h0 : ret = 0
        · simp only [ok_bind, h0, not_true_eq_false, if_false]
          rfl
        · simp only [ok_bind, h0, not_false_eq_true, if_true]
          rfl

/-- The first item of a text, and the text behind its symbol. -/
theorem splitOn_symbol (symbol : UInt8) (buffer : Bytes) :
    symbol ∉ buffer ∧ buffer.splitOn symbol = [buffer] ∧
        buffer.dropWhile (· != symbol) = [] ∨
      ∃ a rest, buffer = a ++ symbol :: rest ∧
        buffer.splitOn symbol = a :: rest.splitOn symbol ∧
        buffer.dropWhile (· != symbol) = symbol :: rest := by
  by_cases h : symbol ∈ buffer
  · obtain ⟨a, rest, rfl, ha⟩ := List.eq_append_cons_of_mem h
    refine Or.inr ⟨a, rest, rfl, List.splitOn_append_cons_self_of_not_mem ha rest, ?_⟩
    rw [List.dropWhile_append_of_pos, List.dropWhile_cons_of_neg (by simp)]
    intro b hb
    simp only [bne_iff_ne]
    rintro rfl
    exact ha hb
  · refine Or.inl ⟨h, List.splitOn_eq_singleton h, ?_⟩
    rw [List.dropWhile_eq_nil_iff]
    intro b hb
    simp only [bne_iff_ne]
    rintro rfl
    exact h hb

/-- `snsd_get_format_num` counts the items. -/
theorem getFormatNum_eq (symbol : UInt8) (buffer : Bytes) :
    snsdGetFormatNum buffer symbol = .ok (buffer.splitOn symbol).length := by
  have hloop : ∀ fuel k, buffer.length < fuel → ∃ last,
      loop (formatNumBody symbol) fuel (k+1, buffer) =
        .ok (k+(buffer.splitOn symbol).length, last) := by
    induction hn : buffer.length using Nat.strong_induction_on generalizing buffer with
    | _ n ih =>
    intro fuel k hf
    obtain ⟨fuel, rfl⟩ := Nat.exists_eq_succ_of_ne_zero (Nat.ne_zero_of_lt hf)
    rcases splitOn_symbol symbol buffer with ⟨-, hs, hd⟩ | ⟨a, rest, rfl, hs, hd⟩
    · refine ⟨buffer, ?_⟩
      rw [hs]
      apply loop_done
      simp only [formatNumBody, hd, List.length_singleton]
    · rw [List.length_append, List.length_cons] at hn
      obtain ⟨last, hl⟩ := ih rest.length (by omega) rest rfl fuel (k+1) (by omega)
      refine ⟨last, ?_⟩
      have hbody : formatNumBody symbol (k+1, a ++ symbol :: rest) =
          .ok (.again (k+1+1, rest)) := by
        simp only [formatNumBody, hd]
      rw [loop_again hbody, hl, hs, List.length_cons]
      congr 2
      omega
  obtain ⟨last, hl⟩ := hloop (buffer.length+1) 0 (Nat.lt_succ_self _)
  rw [Nat.zero_add, Nat.zero_add] at hl
  rw [snsdGetFormatNum, hl]
  rfl

/-- A cleared `tmp_info` with an item in it. -/
theorem str_tmpInfo (tmp : Mem (SNSD_CFG_NAME_MAX_LEN+1)) (h0 : 0 ∉ part)
    (hl : part.length ≤ SNSD_CFG_NAME_MAX_LEN) :
    Str ((tmp.write 0 (List.replicate (SNSD_CFG_NAME_MAX_LEN+1) 0)).write 0 part) 0 part := by
  apply Str.of_write ?_ (Nat.lt_succ_of_le hl) h0
  have hs := tmp.size
  rw [Mem.write_bytes (by rw [List.length_replicate, Nat.zero_add]), List.take_zero, List.nil_append,
    List.length_replicate, Nat.zero_add, List.drop_of_length_le (Nat.le_of_eq hs), List.append_nil]

/-- `snsd_split_with_symbol`: the first item, when it fits. -/
theorem splitWithSymbol_eq (symbol : UInt8) {buffer a : Bytes} {more : List Bytes}
    (tmp : Mem (SNSD_CFG_NAME_MAX_LEN+1)) (h0 : 0 ∉ buffer) (hs : buffer.splitOn symbol = a :: more) :
    (SNSD_CFG_NAME_MAX_LEN < a.length → ∃ t, snsdSplitWithSymbol tmp buffer symbol =
        .ok (t, buffer, -ENOMEM)) ∧
      (a.length ≤ SNSD_CFG_NAME_MAX_LEN → ∃ t rest,
        snsdSplitWithSymbol tmp buffer symbol = .ok (t, rest, 0) ∧ Str t 0 a ∧
          (more ≠ [] → rest.splitOn symbol = more ∧ 0 ∉ rest)) := by
  have hclear : 0+(List.replicate (SNSD_CFG_NAME_MAX_LEN+1) (0 : UInt8)).length ≤
      SNSD_CFG_NAME_MAX_LEN+1 := by rw [List.length_replicate, Nat.zero_add]
  have hfit : a.length ≤ SNSD_CFG_NAME_MAX_LEN → 0+a.length ≤ SNSD_CFG_NAME_MAX_LEN+1 := by omega
  rcases splitOn_symbol symbol buffer with ⟨-, hs', hd⟩ | ⟨b, rest, rfl, hs', hd⟩
  · rw [hs'] at hs
    obtain ⟨rfl, rfl⟩ := List.cons_eq_cons.mp hs
    constructor
    · intro hlong
      refine ⟨tmp.write 0 (List.replicate (SNSD_CFG_NAME_MAX_LEN+1) 0), ?_⟩
      simp only [snsdSplitWithSymbol, Mem.store_ok hclear, ok_bind, hd, if_pos hlong]
      rfl
    · intro hl
      refine ⟨_, buffer, ?_, str_tmpInfo tmp h0 hl, fun hne => absurd rfl hne⟩
      simp only [snsdSplitWithSymbol, Mem.store_ok hclear, ok_bind, hd, if_neg (Nat.not_lt.mpr hl),
        Mem.store_ok (hfit hl)]
      rfl
  · rw [hs'] at hs
    obtain ⟨rfl, rfl⟩ := List.cons_eq_cons.mp hs
    have hlen : (b ++ symbol :: rest).length-(symbol :: rest).length = b.length := by
      rw [List.length_append, Nat.add_sub_cancel]
    have htake : (b ++ symbol :: rest).take b.length = b := List.take_left
    rw [List.mem_append, not_or, List.mem_cons, not_or] at h0
    constructor
    · intro hlong
      refine ⟨tmp.write 0 (List.replicate (SNSD_CFG_NAME_MAX_LEN+1) 0), ?_⟩
      simp only [snsdSplitWithSymbol, Mem.store_ok hclear, ok_bind, hd, hlen, if_pos hlong]
      rfl
    · intro hl
      refine ⟨_, rest, ?_, str_tmpInfo tmp h0.1 hl, fun _ => ⟨rfl, h0.2.2⟩⟩
      simp only [snsdSplitWithSymbol, Mem.store_ok hclear, ok_bind, hd, hlen,
        if_neg (Nat.not_lt.mpr hl), htake, Mem.store_ok (hfit hl)]
      rfl

/-- The loop over the items of a line. -/
theorem formatInfoLoop_eq (symbol : UInt8) (parts : List Bytes) : ∀ {buffer : Bytes}
    (tmp : Mem (SNSD_CFG_NAME_MAX_LEN+1)) (s : ParseState), 0 ∉ buffer →
    buffer.splitOn symbol = parts →
    ∃ item, formatInfoLoop o sectionName symbol parts.length tmp buffer s =
      (runParts o sectionName parts s.cfg).map fun r => (⟨item, r.1⟩, r.2) := by
  induction parts with
  | nil =>
    intro buffer tmp s _ hs
    exact absurd hs (List.splitOn_ne_nil symbol buffer)
  | cons part parts ih =>
    intro buffer tmp s h0 hs
    obtain ⟨hlong, hfit⟩ := splitWithSymbol_eq symbol tmp h0 hs
    have hneg : -ENOMEM ≠ 0 := by decide
    by_cases hl : SNSD_CFG_NAME_MAX_LEN < part.length
    · obtain ⟨t, ht⟩ := hlong hl
      refine ⟨s.item, ?_⟩
      rw [List.length_cons, formatInfoLoop, runParts, if_pos hl]
      simp only [ht, ok_bind, if_pos hneg]
      rfl
    obtain ⟨t, rest, ht, hstr, hmore⟩ := hfit (Nat.le_of_not_lt hl)
    obtain ⟨item, hitem⟩ := getItemInfo_eq o sectionName hstr (Nat.le_of_not_lt hl) s
    rw [List.length_cons, formatInfoLoop, runParts, if_neg hl]
    simp only [ht, ok_bind, ne_eq, not_true_eq_false, if_false, hitem]
    cases hrun : runItem o sectionName part s.cfg with
    | error e => exact ⟨item, rfl⟩
    | ok q =>
      obtain ⟨c, ret⟩ := q
      by_cases hret : ret = 0
      case neg =>
        refine ⟨item, ?_⟩
        simp only [Except.map, ok_bind, hret, not_false_eq_true, if_true]
        rfl
      subst hret
      simp only [Except.map, ok_bind, not_true_eq_false, if_false]
      rcases parts with _ | ⟨p, parts⟩
      · exact ⟨item, rfl⟩
      · obtain ⟨hs', h0'⟩ := hmore (List.cons_ne_nil _ _)
        exact ih t ⟨item, c⟩ h0' hs'

end Items

/-! Lines. -/

section Lines
variable {n len : ℕ} {buf : Mem n}

/-- The copying of a line from any point of it on. -/
theorem splitSign_loop (rest : Bytes) : ∀ {pos : ℕ} (fuel : ℕ) (tmp : Mem SNSD_CFG_VALUE_MAX_LEN)
    (w : Bytes), At buf len pos rest → tmp.read 0 w.length = w → rest.length < fuel →
    w.length ≤ SNSD_CFG_VALUE_MAX_LEN →
    (SNSD_CFG_VALUE_MAX_LEN < w.length+(rest.takeWhile inLine).length →
        loop (splitSignBody buf len) fuel ⟨tmp, w.length, pos⟩ =
          .error (.store SNSD_CFG_VALUE_MAX_LEN 1 SNSD_CFG_VALUE_MAX_LEN)) ∧
      (w.length+(rest.takeWhile inLine).length ≤ SNSD_CFG_VALUE_MAX_LEN →
        ∃ t, loop (splitSignBody buf len) fuel ⟨tmp, w.length, pos⟩ =
            .ok ⟨t, (w ++ rest.takeWhile inLine).length, pos+(rest.takeWhile inLine).length⟩ ∧
          t.read 0 (w ++ rest.takeWhile inLine).length = w ++ rest.takeWhile inLine) := by
  induction rest with
  | nil =>
    intro pos fuel tmp w hat hr hf hw
    obtain ⟨fuel, rfl⟩ := Nat.exists_eq_succ_of_ne_zero (Nat.ne_zero_of_lt hf)
    rw [List.takeWhile_nil, List.length_nil, List.append_nil]
    refine ⟨fun h => absurd h (Nat.not_lt.mpr hw), fun _ => ⟨tmp, loop_done ?_, hr⟩⟩
    rw [splitSignBody, if_neg (by rw [hat.eq_size]; exact Nat.lt_irrefl _)]
    rfl
  | cons c rest ih =>
    intro pos fuel tmp w hat hr hf hw
    obtain ⟨fuel, rfl⟩ := Nat.exists_eq_succ_of_ne_zero (Nat.ne_zero_of_lt hf)
    rw [List.length_cons] at hf
    cases hnl : isNl c with
    | true =>
      rw [List.takeWhile_cons_of_neg (by simp [inLine, hnl]), List.length_nil, List.append_nil]
      refine ⟨fun h => absurd h (Nat.not_lt.mpr hw), fun _ => ⟨tmp, loop_done ?_, hr⟩⟩
      rw [splitSignBody, if_pos hat.lt, hat.get]
      simp only [ok_bind, hnl, if_true]
      rfl
    | false =>
      rw [List.takeWhile_cons_of_pos (by simp [inLine, hnl]), List.length_cons]
      by_cases hroom : w.length < SNSD_CFG_VALUE_MAX_LEN
      · have hbody : splitSignBody buf len ⟨tmp, w.length, pos⟩ =
            .ok (.again ⟨tmp.write w.length [c], w.length+1, pos+1⟩) := by
          rw [splitSignBody, if_pos hat.lt, hat.get]
          simp only [ok_bind, hnl, Mem.store_get_ok hroom]
          rfl
        have hlen : (w ++ [c]).length = w.length+1 := by
          rw [List.length_append, List.length_singleton]
        have hread : (tmp.write w.length [c]).read 0 (w ++ [c]).length = w ++ [c] := by
          have h := Mem.read_write_append (m := tmp) (s := [c]) (o := w.length) hroom
          rw [hr] at h
          rw [hlen]
          exact h
        obtain ⟨hlong, hfit⟩ := ih fuel (tmp.write w.length [c]) (w ++ [c]) hat.next hread
          (by omega) (by rw [hlen]; omega)
        rw [hlen] at hlong hfit
        rw [loop_again hbody, List.append_cons]
        refine ⟨fun h => hlong (by omega), fun h => ?_⟩
        obtain ⟨t, ht, hbuf⟩ := hfit (by omega)
        refine ⟨t, ?_, hbuf⟩
        rw [ht]
        congr 2
        omega
      · -- the room is used up
        have hfull : w.length = SNSD_CFG_VALUE_MAX_LEN := by omega
        refine ⟨fun _ => loop_error ?_, fun h => by omega⟩
        have hstore : tmp.store w.length [c] =
            .error (.store SNSD_CFG_VALUE_MAX_LEN 1 SNSD_CFG_VALUE_MAX_LEN) := by
          rw [Mem.store, if_neg (by rw [List.length_singleton]; omega), hfull]
          rfl
        rw [splitSignBody, if_pos hat.lt, hat.get]
        simp only [ok_bind, hnl, hstore]
        rfl

/-- `snsd_split_with_sign`: it takes the line up to its end. -/
theorem splitWithSign_eq (o : Outside) (sectionName : Bytes) {rest : Bytes} {pos : ℕ}
    (hat : At buf len pos rest) (s : ParseState) :
    (SNSD_CFG_VALUE_MAX_LEN ≤ (rest.takeWhile inLine).length →
        snsdSplitWithSign o sectionName buf len pos s =
          .error (.store SNSD_CFG_VALUE_MAX_LEN 1 SNSD_CFG_VALUE_MAX_LEN)) ∧
      ((rest.takeWhile inLine).length < SNSD_CFG_VALUE_MAX_LEN →
        ∃ item, snsdSplitWithSign o sectionName buf len pos s =
          (runLine o sectionName (rest.takeWhile inLine) s.cfg).map fun r =>
            (⟨item, r.1⟩, pos+(rest.takeWhile inLine).length, r.2)) := by
  have hl := hat.length
  obtain ⟨hlong, hfit⟩ := splitSign_loop rest (len+1) (Mem.zero _) [] hat
    (List.length_eq_zero_iff.mp (by rw [Mem.read_length]; simp)) (by omega) (Nat.zero_le _)
  rw [List.length_nil, Nat.zero_add] at hlong hfit
  rw [List.nil_append] at hfit
  generalize rest.takeWhile inLine = line at *
  constructor
  · intro h
    rcases Nat.lt_or_eq_of_le h with h | h
    · rw [snsdSplitWithSign, hlong h]
      rfl
    · -- the terminator is the first that does not fit
      obtain ⟨t, ht, -⟩ := hfit (Nat.le_of_eq h.symm)
      rw [snsdSplitWithSign, ht]
      have hstore : t.store line.length [0] =
          .error (.store SNSD_CFG_VALUE_MAX_LEN 1 SNSD_CFG_VALUE_MAX_LEN) := by
        rw [Mem.store, if_neg (by rw [List.length_singleton]; omega), ← h]
        rfl
      simp only [ok_bind, hstore]
      rfl
  · intro h
    obtain ⟨t, ht, hbuf⟩ := hfit (Nat.le_of_lt h)
    have hread := Mem.read_write_append (m := t) (s := [0]) (o := line.length) h
    rw [hbuf] at hread
    have hcstr : (t.write line.length [0]).cstr 0 = .ok (lineText line) :=
      Mem.cstr_of_read_take hread
    have h0 : 0 ∉ lineText line := by
      intro h0
      have hne := List.mem_takeWhile_imp h0
      simp at hne
    obtain ⟨item, hloop⟩ := formatInfoLoop_eq o sectionName 124
      ((lineText line).splitOn 124) (Mem.zero _) { s with cfg := snsdInitCfg s.cfg } h0 rfl
    refine ⟨item, ?_⟩
    rw [snsdSplitWithSign, ht]
    simp only [ok_bind, Mem.store_get_ok h, hcstr, snsdGetFormatInfo, getFormatNum_eq, hloop]
    rw [runLine]
    cases runParts o sectionName ((lineText line).splitOn 124) (snsdInitCfg s.cfg) with
    | error e => rfl
    | ok q =>
      obtain ⟨c, ret⟩ := q
      by_cases hret : ret = 0
      · subst hret
        simp only [Except.map, ok_bind, ne_eq, not_true_eq_false, if_false]
        cases hadd : snsdAddOneCfg sectionName c with
        | mk c' ret' =>
          by_cases hret' : ret' = 0
          · simp only [hret', not_true_eq_false, if_false]
            rfl
          · simp only [hret', not_false_eq_true, if_true]
            rfl
      · simp only [Except.map, ok_bind, ne_eq, hret, not_false_eq_true, if_true]
        change (if ¬ret = 0 then _ else _) = _
        rw [if_pos hret]
        rfl

/-- The blanks between lines, which may run into the end. -/
theorem skipBlank_loop (rest : Bytes) : ∀ {pos : ℕ} (fuel : ℕ), At buf len pos rest → rest ≠ [] →
    rest.length < fuel →
    loop (skipBlankBody buf len) fuel (pos, false) =
      .ok (pos+(rest.takeWhile isSpace).length, (rest.dropWhile isSpace).isEmpty) := by
  induction rest with
  | nil => exact fun _ _ h => absurd rfl h
  | cons c rest ih =>
    intro pos fuel hat _ hf
    obtain ⟨fuel, rfl⟩ := Nat.exists_eq_succ_of_ne_zero (Nat.ne_zero_of_lt hf)
    rw [List.length_cons] at hf
    have hl := hat.length
    rw [List.length_cons] at hl
    cases hsp : isSpace c with
    | false =>
      rw [List.takeWhile_cons_of_neg (by simp [hsp]), List.dropWhile_cons_of_neg (by simp [hsp])]
      apply loop_done
      rw [skipBlankBody, hat.get]
      simp only [ok_bind, hsp]
      rfl
    | true =>
      rw [List.takeWhile_cons_of_pos hsp, List.dropWhile_cons_of_pos hsp, List.length_cons]
      by_cases hend : pos+1 ≥ len
      · have hnil : rest = [] := List.length_eq_zero_iff.mp (by omega)
        subst hnil
        apply loop_done
        rw [skipBlankBody, hat.get]
        simp only [ok_bind, hsp, if_true, if_pos hend]
        rfl
      · have hbody : skipBlankBody buf len (pos, false) = .ok (.again (pos+1, false)) := by
          rw [skipBlankBody, hat.get]
          simp only [ok_bind, hsp, if_true, if_neg hend]
          rfl
        have hne : rest ≠ [] := by
          rintro rfl
          rw [List.length_nil] at hl
          omega
        rw [loop_again hbody, ih fuel hat.next hne (by omega), Nat.add_right_comm, Nat.add_assoc]

/-- From the first item on: blanks and comments are skipped. -/
def firstItem : Bytes → Bytes
  | [] => []
  | c :: cs =>
    if isSpace c then firstItem cs
    else if c = 59 then firstItem (cs.dropWhile inLine)
    else c :: cs
  termination_by t => t.length
  decreasing_by
  · exact Nat.lt_succ_self _
  · exact Nat.lt_succ_of_le (List.length_dropWhile_le _ _)

theorem firstItem_dropWhile (t : Bytes) : firstItem (t.dropWhile isSpace) = firstItem t := by
  induction t with
  | nil => rfl
  | cons c t ih =>
    cases h : isSpace c with
    | true => rw [List.dropWhile_cons_of_pos h, ih, firstItem, if_pos h]
    | false => rw [List.dropWhile_cons_of_neg (by simp [h])]

theorem itemLines_firstItem (t : Bytes) : itemLines (firstItem t) = itemLines t := by
  induction hn : t.length using Nat.strong_induction_on generalizing t with
  | _ n ih =>
  rcases t with _ | ⟨c, t⟩
  · rw [firstItem]
  rw [List.length_cons] at hn
  by_cases hsp : isSpace c = true
  · rw [firstItem, if_pos hsp, itemLines_space t hsp]
    exact ih t.length (by omega) t rfl
  · by_cases h59 : c = 59
    · have hle := List.length_dropWhile_le inLine t
      rw [firstItem, if_neg hsp, if_pos h59, itemLines, if_neg hsp, if_pos h59]
      exact ih (t.dropWhile inLine).length (by omega) _ rfl
    · rw [firstItem, if_neg hsp, if_neg h59]

theorem firstItem_length_le (t : Bytes) : (firstItem t).length ≤ t.length := by
  induction hn : t.length using Nat.strong_induction_on generalizing t with
  | _ n ih =>
  rcases t with _ | ⟨c, t⟩
  · rw [firstItem, List.length_nil]
    exact Nat.zero_le n
  rw [List.length_cons] at hn
  by_cases hsp : isSpace c = true
  · rw [firstItem, if_pos hsp]
    have h := ih t.length (by omega) t rfl
    omega
  · by_cases h59 : c = 59
    · have hle := List.length_dropWhile_le inLine t
      rw [firstItem, if_neg hsp, if_pos h59]
      have h := ih (t.dropWhile inLine).length (by omega) _ rfl
      omega
    · rw [firstItem, if_neg hsp, if_neg h59, List.length_cons]
      omega

theorem firstItem_cons {t cs : Bytes} {c : UInt8} (h : firstItem t = c :: cs) :
    isSpace c = false ∧ c ≠ 59 := by
  induction hn : t.length using Nat.strong_induction_on generalizing t with
  | _ n ih =>
  rcases t with _ | ⟨d, t⟩
  · rw [firstItem] at h
    simp at h
  rw [List.length_cons] at hn
  by_cases hsp : isSpace d = true
  · rw [firstItem, if_pos hsp] at h
    exact ih t.length (by omega) h rfl
  · by_cases h59 : d = 59
    · have hle := List.length_dropWhile_le inLine t
      rw [firstItem, if_neg hsp, if_pos h59] at h
      exact ih (t.dropWhile inLine).length (by omega) h rfl
    · rw [firstItem, if_neg hsp, if_neg h59] at h
      obtain ⟨rfl, -⟩ := List.cons_eq_cons.mp h
      exact ⟨by simpa using hsp, h59⟩

theorem skipComment_loop (rest : Bytes) : ∀ {pos : ℕ} (fuel : ℕ), At buf len pos rest → rest ≠ [] →
    rest.length < fuel →
    (firstItem rest = [] → ∃ off, loop (skipCommentBody buf len) fuel (pos, 0) =
        .ok (off, SNSD_CFG_SECTION_END)) ∧
      ∀ c cs, firstItem rest = c :: cs → ∃ off, loop (skipCommentBody buf len) fuel (pos, 0) =
        .ok (off, SNSD_CFG_ITEM_END) ∧ At buf len off (c :: cs) := by
  induction hn : rest.length using Nat.strong_induction_on generalizing rest with
  | _ n ih =>
  intro pos fuel hat hne hf
  obtain ⟨fuel, rfl⟩ := Nat.exists_eq_succ_of_ne_zero (Nat.ne_zero_of_lt hf)
  have hl := hat.length
  have hblank := skipBlank_loop rest (len+1) hat hne (by omega)
  have hat' := hat.dropWhile isSpace
  have hle := List.length_dropWhile_le isSpace rest
  rw [← firstItem_dropWhile rest]
  generalize pos+(rest.takeWhile isSpace).length = p at *
  have hhead := List.head?_dropWhile_not isSpace rest
  rcases hd : rest.dropWhile isSpace with _ | ⟨c, cs⟩
  · -- only blanks are left
    refine ⟨fun _ => ⟨p, loop_done ?_⟩, fun c cs h => ?_⟩
    · rw [skipCommentBody, hblank, hd]
      rfl
    · rw [firstItem] at h
      simp at h
  rw [hd] at hblank hat' hle hhead
  have hsp : isSpace c = false := by simpa using hhead
  rw [List.length_cons] at hle
  by_cases h59 : c = 59
  case neg =>
    have hitem : firstItem (c :: cs) = c :: cs := by
      rw [firstItem, if_neg (by simp [hsp]), if_neg h59]
    rw [hitem]
    refine ⟨fun h => absurd h (List.cons_ne_nil _ _), fun d ds h => ⟨p, loop_done ?_, ?_⟩⟩
    · have hb : (!isSpace c && c != 59) = true := by simp [hsp, h59]
      have hne59 : (c == 59) = false := by simpa using h59
      rw [skipCommentBody, hblank]
      simp only [ok_bind, List.isEmpty_cons, Bool.false_eq_true, if_false, if_pos hat'.lt, hat'.get,
        Except.map, hne59, false_and, hb, if_true]
      rfl
    · rw [← h]
      exact hat'
  -- a comment
  subst h59
  have hskip := hat'.skipWhile_eq inLine
  have hat2 := hat'.dropWhile inLine
  have hin : inLine 59 = true := by decide
  have hitem : firstItem (59 :: cs) = firstItem (cs.dropWhile inLine) := by
    rw [firstItem, if_neg (by decide), if_pos rfl]
  rw [List.dropWhile_cons_of_pos hin] at hat2
  rw [hitem]
  have hle2 := List.length_dropWhile_le inLine cs
  have hhead2 := List.head?_dropWhile_not inLine cs
  generalize p+((59 :: cs).takeWhile inLine).length = q at *
  rcases hd2 : cs.dropWhile inLine with _ | ⟨b, bs⟩
  · rw [hd2] at hat2
    have hend : q ≥ len := Nat.le_of_eq hat2.eq_size.symm
    refine ⟨fun _ => ⟨q, loop_done ?_⟩, fun c cs h => ?_⟩
    · rw [skipCommentBody, hblank]
      simp only [ok_bind, List.isEmpty_cons, Bool.false_eq_true, if_false, if_pos hat'.lt, hat'.get,
        Except.map, beq_self_eq_true, if_true]
      change (do
        let offset ← skipWhile buf len inLine p
        _) = _
      rw [hskip]
      simp only [ok_bind, hend, and_self, if_true]
      rfl
    · rw [firstItem] at h
      simp at h
  · rw [hd2] at hat2 hhead2 hle2
    have hnl : isNl b = true := by simpa [inLine] using hhead2
    have hb : (!isSpace b && b != 59) = false := by simp [isSpace_of_isNl hnl]
    have hnot : ¬q ≥ len := Nat.not_le_of_lt hat2.lt
    have hbody : skipCommentBody buf len (pos, 0) = .ok (.again (q, 0)) := by
      rw [skipCommentBody, hblank]
      simp only [ok_bind, List.isEmpty_cons, Bool.false_eq_true, if_false, if_pos hat'.lt, hat'.get,
        Except.map, beq_self_eq_true, if_true]
      change (do
        let offset ← skipWhile buf len inLine p
        _) = _
      rw [hskip]
      simp only [ok_bind, hnot, and_false, if_false, hat2.get, hb]
      rfl
    rw [loop_again hbody]
    rw [List.length_cons] at hle2
    exact ih (b :: bs).length (by rw [List.length_cons]; omega) (b :: bs) rfl fuel hat2
      (List.cons_ne_nil _ _) (by rw [List.length_cons]; omega)

/-- `snsd_skip_line`, from the end of a line. -/
theorem skipLine_eq {rest : Bytes} {pos : ℕ} (hat : At buf len pos rest)
    (hend : rest.takeWhile inLine = []) :
    (rest.dropWhile isNl = [] → ∃ off, snsdSkipLine buf pos len = .ok (off, SNSD_CFG_SECTION_END)) ∧
      (rest.dropWhile isNl ≠ [] → ∃ off, snsdSkipLine buf pos len = .ok (off, SNSD_CFG_ITEM_END) ∧
        At buf len off (rest.dropWhile isNl)) := by
  have hskip := hat.skipWhile_eq inLine
  rw [hend, List.length_nil, Nat.add_zero] at hskip
  have hnl := hat.skipWhile_eq isNl
  have hat' := hat.dropWhile isNl
  by_cases hpos : pos ≥ len
  · have hnil : rest = [] := by
      have hl := hat.length
      exact List.length_eq_zero_iff.mp (by omega)
    subst hnil
    refine ⟨fun _ => ⟨pos, ?_⟩, fun h => absurd List.dropWhile_nil h⟩
    rw [snsdSkipLine, if_pos hpos]
    rfl
  · have hunfold : snsdSkipLine buf pos len = (do
        let offset ← skipWhile buf len isNl pos
        if offset ≥ len then return (offset, SNSD_CFG_SECTION_END)
        return (offset, SNSD_CFG_ITEM_END)) := by
      rw [snsdSkipLine, if_neg hpos]
      change (do
        let offset ← skipWhile buf len inLine pos
        _) = _
      rw [hskip]
      simp only [ok_bind, if_neg hpos]
    rw [hunfold, hnl]
    simp only [ok_bind]
    constructor
    · intro h
      rw [h] at hat'
      exact ⟨_, if_pos (Nat.le_of_eq hat'.eq_size.symm)⟩
    · intro h
      have hl := hat'.length
      have hlen := List.length_pos_iff.mpr h
      exact ⟨_, if_neg (by omega), hat'⟩

theorem itemLines_dropWhile_isNl (t : Bytes) : itemLines (t.dropWhile isNl) = itemLines t := by
  induction t with
  | nil => rfl
  | cons c t ih =>
    cases h : isNl c with
    | true => rw [List.dropWhile_cons_of_pos h, ih, itemLines_space t (isSpace_of_isNl h)]
    | false => rw [List.dropWhile_cons_of_neg (by simp [h])]

/-- The loop of `snsd_section_parse` from any line on. -/
theorem sectionParse_loop (o : Outside) (sectionName rest : Bytes) : ∀ {pos : ℕ} (fuel : ℕ)
    (s : CfgState), At buf len pos rest → rest.length < fuel →
    (loop (sectionParseBody o sectionName buf len) fuel ⟨pos, s, 0⟩).map (fun r => (r.cfg, r.ret)) =
      runLines o sectionName (itemLines rest) s := by
  induction hn : rest.length using Nat.strong_induction_on generalizing rest with
  | _ n ih =>
  intro pos fuel s hat hf
  obtain ⟨fuel, rfl⟩ := Nat.exists_eq_succ_of_ne_zero (Nat.ne_zero_of_lt hf)
  by_cases hne : rest = []
  · subst hne
    have hbody : sectionParseBody o sectionName buf len ⟨pos, s, 0⟩ = .ok (.done ⟨pos, s, 0⟩) := by
      rw [sectionParseBody, if_neg (by rw [hat.eq_size]; exact Nat.lt_irrefl _)]
      rfl
    rw [loop_done hbody, itemLines]
    rfl
  have hl := hat.length
  have hpos : pos < len := by
    have hlen := List.length_pos_iff.mpr hne
    omega
  obtain ⟨hnone, hsome⟩ := skipComment_loop rest (len+1) hat hne (by omega)
  have hsec : SNSD_CFG_ITEM_END ≠ SNSD_CFG_SECTION_END := by decide
  rw [← itemLines_firstItem rest]
  rcases hitem : firstItem rest with _ | ⟨c, cs⟩
  · obtain ⟨off, hoff⟩ := hnone hitem
    have hbody : sectionParseBody o sectionName buf len ⟨pos, s, 0⟩ = .ok (.done ⟨off, s, 0⟩) := by
      rw [sectionParseBody, if_pos hpos, snsdSkipInvalidComment, hoff]
      rfl
    rw [loop_done hbody, itemLines]
    rfl
  obtain ⟨off, hoff, hat'⟩ := hsome c cs hitem
  obtain ⟨hsp, h59⟩ := firstItem_cons hitem
  have hin : inLine c = true := by
    rw [inLine, Bool.not_eq_true']
    by_contra hnl
    rw [isSpace_of_isNl (by simpa using hnl)] at hsp
    simp at hsp
  have hlines : itemLines (c :: cs) =
      ((c :: cs).takeWhile inLine) :: itemLines (cs.dropWhile inLine) := by
    rw [itemLines, if_neg (by simp [hsp]), if_neg h59, List.takeWhile_cons_of_pos hin]
  obtain ⟨hlong, hfit⟩ := splitWithSign_eq o sectionName hat'
    ⟨⟨Mem.zero _, Mem.zero _⟩, s⟩
  have hat2 := hat'.dropWhile inLine
  rw [List.dropWhile_cons_of_pos hin] at hat2
  have hlast : (cs.dropWhile inLine).takeWhile inLine = [] := by
    have hhead := List.head?_dropWhile_not inLine cs
    rcases hd : cs.dropWhile inLine with _ | ⟨b, bs⟩
    · rfl
    · rw [hd] at hhead
      exact List.takeWhile_cons_of_neg (by simpa using hhead)
  rw [hlines, runLines]
  generalize (c :: cs).takeWhile inLine = line at *
  by_cases hll : line.length ≥ SNSD_CFG_VALUE_MAX_LEN
  · have hbody : sectionParseBody o sectionName buf len ⟨pos, s, 0⟩ =
        .error (.store SNSD_CFG_VALUE_MAX_LEN 1 SNSD_CFG_VALUE_MAX_LEN) := by
      rw [sectionParseBody, if_pos hpos, snsdSkipInvalidComment, hoff]
      simp only [ok_bind, if_neg hsec, ne_eq, not_true_eq_false, if_false, hlong hll]
      rfl
    rw [loop_error hbody, if_pos hll]
    rfl
  obtain ⟨item, hsplit⟩ := hfit (Nat.lt_of_not_le hll)
  rw [if_neg hll]
  cases hrun : runLine o sectionName line s with
  | error e =>
    rw [hrun] at hsplit
    have hbody : sectionParseBody o sectionName buf len ⟨pos, s, 0⟩ = .error e := by
      rw [sectionParseBody, if_pos hpos, snsdSkipInvalidComment, hoff]
      simp only [ok_bind, if_neg hsec, ne_eq, not_true_eq_false, if_false, hsplit]
      rfl
    rw [loop_error hbody]
    rfl
  | ok q =>
    obtain ⟨s', ret⟩ := q
    rw [hrun] at hsplit
    by_cases hret : ret = 0
    case neg =>
      have hbody : sectionParseBody o sectionName buf len ⟨pos, s, 0⟩ =
          .ok (.done ⟨off+line.length, s', -EPERM⟩) := by
        rw [sectionParseBody, if_pos hpos, snsdSkipInvalidComment, hoff]
        simp only [ok_bind, if_neg hsec, ne_eq, not_true_eq_false, if_false, hsplit, Except.map,
          hret, not_false_eq_true, if_true]
        rfl
      rw [loop_done hbody]
      simp only [Except.map, ok_bind, ne_eq, hret, not_false_eq_true, if_true]
      rfl
    subst hret
    simp only [ok_bind, ne_eq, not_true_eq_false, if_false]
    obtain ⟨hstop, hmore⟩ := skipLine_eq hat2 hlast
    rw [← itemLines_dropWhile_isNl]
    by_cases hd : (cs.dropWhile inLine).dropWhile isNl = []
    · obtain ⟨off', hoff'⟩ := hstop hd
      have hbody : sectionParseBody o sectionName buf len ⟨pos, s, 0⟩ =
          .ok (.done ⟨off', s', 0⟩) := by
        rw [sectionParseBody, if_pos hpos, snsdSkipInvalidComment, hoff]
        simp only [ok_bind, if_neg hsec, ne_eq, not_true_eq_false, if_false, hsplit, Except.map,
          hoff']
        rfl
      rw [loop_done hbody, hd, itemLines]
      rfl
    · obtain ⟨off', hoff', hat3⟩ := hmore hd
      have hbody : sectionParseBody o sectionName buf len ⟨pos, s, 0⟩ =
          .ok (.again ⟨off', s', 0⟩) := by
        rw [sectionParseBody, if_pos hpos, snsdSkipInvalidComment, hoff]
        simp only [ok_bind, if_neg hsec, ne_eq, not_true_eq_false, if_false, hsplit, Except.map,
          hoff']
        rfl
      have hle := firstItem_length_le rest
      have hle1 := List.length_dropWhile_le inLine cs
      have hle2 := List.length_dropWhile_le isNl (cs.dropWhile inLine)
      rw [hitem, List.length_cons] at hle
      rw [loop_again hbody]
      exact ih _ (by omega) _ rfl fuel s' hat3 (by omega)

end Lines

/-- What a section comes back with. -/
theorem runLines_ret {o : Outside} {sectionName : Bytes} {lines : List Bytes} {s s' : CfgState}
    {ret : ℤ} (h : runLines o sectionName lines s = .ok (s', ret)) : ret = 0 ∨ ret = -EPERM := by
  induction lines generalizing s with
  | nil =>
    obtain ⟨-, rfl⟩ := Prod.mk.inj (Except.ok.inj h)
    exact Or.inl rfl
  | cons line lines ih =>
    rw [runLines] at h
    split at h
    · simp at h
    · obtain ⟨⟨c, r⟩, -, h⟩ := bind_eq_ok.mp h
      simp only at h
      by_cases hr : r ≠ 0
      case neg =>
        rw [if_neg hr] at h
        exact ih h
      · rw [if_pos hr] at h
        obtain ⟨-, rfl⟩ := Prod.mk.inj (Except.ok.inj h)
        exact Or.inr rfl

/-- Reading a section of a file: each line of it, once its blanks are out. -/
theorem getSectionInfo_eq (o : Outside) {file : Bytes} (name : Bytes) (s : CfgState)
    (hl : file.length < SNSD_CFG_FILE_MAX_SIZE) :
    snsdGetSectionInfo o file name s =
      match sectionText name file with
      | none => .ok (s, -EPERM)
      | some t => runLines o name (itemLines (blankFree t)) s := by
  obtain ⟨hnone, hsome⟩ := sectionLoad_eq name hl
  cases ht : sectionText name file with
  | none =>
    rw [snsdGetSectionInfo, hnone ht]
    rfl
  | some t =>
    obtain ⟨buf, hload, hat⟩ := hsome t ht
    obtain ⟨buf', hdel, hat'⟩ := delBlank_eq hat
    have hparse := sectionParse_loop o name (blankFree t) ((blankFree t).length+1) s hat'
      (Nat.lt_succ_self _)
    rw [snsdGetSectionInfo, hload]
    simp only [ok_bind, hdel, snsdSectionParse]
    cases hloop : loop (sectionParseBody o name buf' (blankFree t).length)
        ((blankFree t).length+1) ⟨0, s, 0⟩ with
    | error e =>
      rw [hloop] at hparse
      rw [← hparse]
      rfl
    | ok r =>
      rw [hloop] at hparse
      rw [← hparse]
      rcases runLines_ret hparse.symm with hret | hret
      · simp only [ok_bind, Except.map, hret]
        rfl
      · simp only [ok_bind, Except.map, hret]
        rfl

end NvmeSnsd.Cfg
