import NvmeSnsd.Cfg.ParseSpec

/-! How the passes act on a text that is put together from pieces: taking out the
blanks, cutting into lines and items, finding a section. -/
namespace NvmeSnsd.Cfg
open Lib

/-! Blanks. A text that does not end in a space is not changed by what follows. -/

theorem trimEnd_append_ne (u : Bytes) {b : UInt8} (hb : b ≠ 32) : trimEnd (u ++ [b]) = u ++ [b] :=
  List.rdropWhile_concat_neg _ _ _ (by simpa using hb)

theorem trimEnd_append {u : Bytes} (hu : trimEnd u = u) (t : Bytes) :
    trimEnd (u ++ t) = u ++ trimEnd t := by
  induction t using List.reverseRecOn with
  | nil =>
    rw [List.append_nil, hu]
    exact (List.append_nil u).symm
  | append_singleton t b ih =>
    rw [← List.append_assoc]
    by_cases hb : b = 32
    · have h1 : trimEnd (u ++ t ++ [b]) = trimEnd (u ++ t) :=
        List.rdropWhile_concat_pos _ _ _ (by simpa using hb)
      have h2 : trimEnd (t ++ [b]) = trimEnd t := List.rdropWhile_concat_pos _ _ _ (by simpa using hb)
      rw [h1, h2, ih]
    · rw [trimEnd_append_ne _ hb, trimEnd_append_ne _ hb, List.append_assoc]

theorem blankStep_append {u : Bytes} (hu : trimEnd u = u) (t : Bytes) (flag : Bool) (c : UInt8) :
    blankStep (u ++ t, flag) c = (u ++ (blankStep (t, flag) c).1, (blankStep (t, flag) c).2) := by
  simp only [blankStep, trimEnd_append hu]
  split_ifs
  · rw [List.append_assoc]
  · rw [List.append_assoc]
  · rw [List.append_assoc]
  · rfl

theorem foldl_blankStep_append {u : Bytes} (hu : trimEnd u = u) (cs t : Bytes) (flag : Bool) :
    cs.foldl blankStep (u ++ t, flag) =
      (u ++ (cs.foldl blankStep (t, flag)).1, (cs.foldl blankStep (t, flag)).2) := by
  induction cs generalizing t flag with
  | nil => rfl
  | cons c cs ih =>
    rw [List.foldl_cons, blankStep_append hu, ih, List.foldl_cons]

theorem isMark_of_isNl {b : UInt8} (h : isNl b = true) : isMark b = true := by
  simp only [isNl, Bool.or_eq_true, beq_iff_eq] at h
  rcases h with rfl | rfl <;> decide

theorem isMark_ne_space {b : UInt8} (h : isMark b = true) : b ≠ 32 := by
  rintro rfl
  revert h
  decide

/-- A mark starts the text anew. -/
theorem foldl_blankStep_mark {b : UInt8} (hb : isMark b = true) (t rest : Bytes) (flag : Bool) :
    ((b :: rest).foldl blankStep (t, flag)).1 = trimEnd t ++ b :: blankFree rest := by
  have hu := trimEnd_append_ne (trimEnd t) (isMark_ne_space hb)
  have hstep : blankStep (t, flag) b = (trimEnd t ++ [b], true) := if_pos hb
  have hrest := foldl_blankStep_append hu rest [] true
  rw [List.append_nil] at hrest
  rw [List.foldl_cons, hstep, hrest, blankFree, List.append_assoc, List.singleton_append]

theorem blankFree_nl {b : UInt8} (hb : isNl b = true) (a rest : Bytes) :
    blankFree (a ++ b :: rest) = trimEnd (blankFree a) ++ b :: blankFree rest := by
  rw [blankFree, List.foldl_append]
  exact foldl_blankStep_mark (isMark_of_isNl hb) _ rest _

theorem foldl_blankStep_plain {w : Bytes} (hw : ∀ b ∈ w, isSpace b = false ∧ isMark b = false)
    (t : Bytes) (flag : Bool) :
    w.foldl blankStep (t, flag) = (t ++ w, if w = [] then flag else false) := by
  induction w generalizing t flag with
  | nil => rw [List.foldl_nil, List.append_nil, if_pos rfl]
  | cons b w ih =>
    obtain ⟨hs, hm⟩ := hw b List.mem_cons_self
    have hstep : blankStep (t, flag) b = (t ++ [b], false) := by
      rw [blankStep, if_neg (by simp [hm]), if_pos (by simp [hs])]
    rw [List.foldl_cons, hstep, ih (fun c hc => hw c (List.mem_cons_of_mem _ hc)),
      ← List.append_cons, if_neg (List.cons_ne_nil _ _), ite_self]

theorem mem_blankStep {s : Bytes × Bool} {b c : UInt8} (h : b ∈ (blankStep s c).1) :
    b ∈ s.1 ∨ b = c := by
  rw [blankStep] at h
  split_ifs at h with h1 h2 h3
  · rcases List.mem_append.mp h with h | h
    · exact Or.inl ((List.rdropWhile_prefix _ _).subset h)
    · exact Or.inr (List.mem_singleton.mp h)
  · exact (List.mem_append.mp h).imp id List.mem_singleton.mp
  · exact (List.mem_append.mp h).imp id List.mem_singleton.mp
  · exact Or.inl h

theorem mem_foldl_blankStep {cs : Bytes} {s : Bytes × Bool} {b : UInt8}
    (h : b ∈ (cs.foldl blankStep s).1) : b ∈ s.1 ∨ b ∈ cs := by
  induction cs generalizing s with
  | nil => exact Or.inl h
  | cons c cs ih =>
    rw [List.foldl_cons] at h
    rcases ih h with h | h
    · exact (mem_blankStep h).imp id fun hc => by rw [hc]; exact List.mem_cons_self
    · exact Or.inr (List.mem_cons_of_mem _ h)

/-- Nothing comes in. -/
theorem mem_blankFree {t : Bytes} {b : UInt8} (h : b ∈ blankFree t) : b ∈ t :=
  (mem_foldl_blankStep h).resolve_left List.not_mem_nil

/-! Lines. -/

theorem dropWhile_append_stop {p : UInt8 → Bool} {b : UInt8} (hb : p b = false) (a rest : Bytes) :
    (a ++ b :: rest).dropWhile p = a.dropWhile p ++ b :: rest := by
  induction a with
  | nil => simp [hb]
  | cons x a ih =>
    rw [List.cons_append, List.dropWhile_cons, List.dropWhile_cons]
    split
    · exact ih
    · rfl

/-- An end of line splits the lines. -/
theorem itemLines_nl {b : UInt8} (hb : isNl b = true) (a rest : Bytes) :
    itemLines (a ++ b :: rest) = itemLines a ++ itemLines rest := by
  have hin : inLine b = false := by simp [inLine, hb]
  induction hn : a.length using Nat.strong_induction_on generalizing a with
  | _ n ih =>
  rcases a with _ | ⟨c, a⟩
  · rw [List.nil_append, itemLines_space _ (isSpace_of_isNl hb)]
    simp [itemLines]
  rw [List.length_cons] at hn
  have hle := List.length_dropWhile_le inLine a
  rw [List.cons_append]
  by_cases hsp : isSpace c = true
  · rw [itemLines_space _ hsp, itemLines_space _ hsp]
    exact ih a.length (by omega) a rfl
  by_cases h59 : c = 59
  · rw [itemLines, if_neg hsp, if_pos h59, itemLines, if_neg hsp, if_pos h59,
      dropWhile_append_stop hin]
    exact ih _ (by omega) _ rfl
  · rw [itemLines, if_neg hsp, if_neg h59, itemLines, if_neg hsp, if_neg h59,
      dropWhile_append_stop hin, takeWhile_append_stop hin, List.cons_append]
    congr 1
    exact ih _ (by omega) _ rfl

theorem inLine_of_not_mem {w : Bytes} (h : ∀ b ∈ w, isNl b = false) {b : UInt8} (hb : b ∈ w) :
    inLine b = true := by
  rw [inLine, h b hb]
  rfl

/-- A text without an end of line is a line, unless it is blank or a comment. -/
theorem itemLines_line {w : Bytes} (h : ∀ b ∈ w, isNl b = false) :
    itemLines w = if (w.dropWhile isSpace).head?.getD 59 = 59 then []
      else [w.dropWhile isSpace] := by
  rw [← itemLines_dropWhile w]
  have hsub : ∀ b ∈ w.dropWhile isSpace, isNl b = false :=
    fun b hb => h b ((List.dropWhile_suffix _).subset hb)
  have hhead := List.head?_dropWhile_not isSpace w
  generalize w.dropWhile isSpace = u at *
  rcases u with _ | ⟨c, cs⟩
  · simp [itemLines]
  have hsp : ¬isSpace c = true := by simpa using hhead
  have hall : ∀ b ∈ cs, inLine b = true :=
    fun b hb => inLine_of_not_mem hsub (List.mem_cons_of_mem _ hb)
  rw [List.head?_cons, Option.getD_some, itemLines, if_neg hsp, List.dropWhile_eq_nil_iff.mpr hall,
    List.takeWhile_eq_self_iff.mpr hall, itemLines]

/-! Sections. -/

/-- Whether the scan is in a header behind the text. -/
def headerStep (h : Bool) (b : UInt8) : Bool := if h then b != 93 else b == 91

def inHeader (t : Bytes) : Bool := t.foldl headerStep false

theorem inHeader_cons {c : UInt8} (hc : c ≠ 91) (t : Bytes) : inHeader (c :: t) = inHeader t := by
  have hstep : headerStep false c = false := by simp [headerStep, hc]
  rw [inHeader, List.foldl_cons, hstep, inHeader]

theorem foldl_headerStep {w : Bytes} (hw : 93 ∉ w) : w.foldl headerStep true = true := by
  induction w with
  | nil => rfl
  | cons b w ih =>
    rw [List.mem_cons, not_or] at hw
    have hstep : headerStep true b = true := by simp [headerStep, Ne.symm hw.1]
    rw [List.foldl_cons, hstep, ih hw.2]

/-- A header with its bracket. -/
theorem inHeader_name {nm : Bytes} (hnm : 93 ∉ nm) (t : Bytes) :
    inHeader (91 :: (nm ++ 93 :: t)) = inHeader t := by
  rw [inHeader, List.foldl_cons, List.foldl_append]
  change ((93 :: t).foldl headerStep (nm.foldl headerStep true)) = _
  rw [foldl_headerStep hnm]
  rfl

/-- A header that is closed. -/
theorem exists_name_of_inHeader {cs : Bytes} (h : inHeader (91 :: cs) = false) :
    ∃ nm rest, cs = nm ++ 93 :: rest ∧ 93 ∉ nm ∧ inHeader rest = false := by
  by_cases h93 : 93 ∈ cs
  · obtain ⟨nm, rest, rfl, hnm⟩ := List.eq_append_cons_of_mem h93
    rw [inHeader_name hnm] at h
    exact ⟨nm, rest, rfl, hnm, h⟩
  · have hopen : inHeader (91 :: cs) = true := foldl_headerStep h93
    rw [hopen] at h
    simp at h

theorem sectionText_cons {name : Bytes} {c : UInt8} (hc : c ≠ 91) (t : Bytes) :
    sectionText name (c :: t) = sectionText name t := by
  rw [sectionText, if_neg hc]

theorem sectionText_skip {name w : Bytes} (hw : 91 ∉ w) (t : Bytes) :
    sectionText name (w ++ t) = sectionText name t := by
  induction w with
  | nil => rfl
  | cons b w ih =>
    rw [List.mem_cons, not_or] at hw
    rw [List.cons_append, sectionText_cons (Ne.symm hw.1), ih hw.2]

/-- A section header, whatever follows it. -/
theorem sectionText_header {name nm : Bytes} (hnm : 93 ∉ nm) (t : Bytes) :
    sectionText name (91 :: (nm ++ 93 :: t)) =
      if nm.length < SNSD_MAX_SECTION_NAME_LEN then
        if nm.takeWhile (· != 0) = name then some (t.takeWhile (· != 91)) else sectionText name t
      else none := by
  have hall : ∀ b ∈ nm, (b != 93) = true := by
    intro b hb
    rw [bne_iff_ne]
    rintro rfl
    exact hnm hb
  have hlen : 93 ∈ (nm ++ 93 :: t).take SNSD_MAX_SECTION_NAME_LEN ↔
      nm.length < SNSD_MAX_SECTION_NAME_LEN := by
    rw [List.take_append, List.mem_append]
    constructor
    · rintro (h | h)
      · exact absurd (List.mem_of_mem_take h) hnm
      · by_contra hle
        rw [Nat.sub_eq_zero_of_le (Nat.le_of_not_lt hle)] at h
        simp at h
    · intro h
      obtain ⟨k, hk⟩ := Nat.exists_eq_succ_of_ne_zero (Nat.sub_ne_zero_of_lt h)
      right
      rw [hk, List.take_succ_cons]
      exact List.mem_cons_self
  have htake : (nm ++ 93 :: t).takeWhile (· != 93) = nm := by
    rw [takeWhile_append_stop (by decide), List.takeWhile_eq_self_iff.mpr hall]
  have hdrop : afterName (nm ++ 93 :: t) = t := by
    rw [afterName, dropWhile_append_stop (by decide), List.dropWhile_eq_nil_iff.mpr hall]
    rfl
  rw [sectionText, if_pos rfl, htake, hdrop]
  simp only [hlen]

theorem takeWhile_append_of_not_mem {q : Bytes} {c : UInt8} (hq : c ∉ q) (t : Bytes) :
    (q ++ t).takeWhile (· != c) = q ++ t.takeWhile (· != c) := by
  apply List.takeWhile_append_of_pos
  intro b hb
  rw [bne_iff_ne]
  rintro rfl
  exact hq hb

/-- What a text outside of any header has to do with finding a section: it is
found and ended before, it reaches up to here, or it comes later. -/
theorem sectionText_pieces (name : Bytes) (pre : Bytes) (h : inHeader pre = false) :
    (∃ r, ∀ t, sectionText name (pre ++ t) = r) ∨
      (∃ a q, pre = a ++ q ∧ inHeader a = false ∧ 91 ∉ q ∧
        ∀ t, sectionText name (pre ++ t) = some (q ++ t.takeWhile (· != 91))) ∨
      ∀ t, sectionText name (pre ++ t) = sectionText name t := by
  induction hn : pre.length using Nat.strong_induction_on generalizing pre with
  | _ n ih =>
  rcases pre with _ | ⟨c, cs⟩
  · exact Or.inr (Or.inr fun t => rfl)
  rw [List.length_cons] at hn
  by_cases h91 : c = 91
  case neg =>
    rw [inHeader_cons h91] at h
    rcases ih cs.length (by omega) cs h rfl with ⟨r, hr⟩ | ⟨a, q, rfl, ha, hq, ht⟩ | ht
    · exact Or.inl ⟨r, fun t => by rw [List.cons_append, sectionText_cons h91, hr]⟩
    · refine Or.inr (Or.inl ⟨c :: a, q, rfl, by rw [inHeader_cons h91, ha], hq, fun t => ?_⟩)
      rw [List.cons_append, sectionText_cons h91, ht]
    · exact Or.inr (Or.inr fun t => by rw [List.cons_append, sectionText_cons h91, ht])
  subst h91
  obtain ⟨nm, rest, rfl, hnm, hrest⟩ := exists_name_of_inHeader h
  have hhead : ∀ t, sectionText name (91 :: (nm ++ 93 :: rest) ++ t) =
      if nm.length < SNSD_MAX_SECTION_NAME_LEN then
        if nm.takeWhile (· != 0) = name then some ((rest ++ t).takeWhile (· != 91))
        else sectionText name (rest ++ t)
      else none := by
    intro t
    rw [List.cons_append, List.append_assoc, List.cons_append]
    exact sectionText_header hnm (rest ++ t)
  by_cases hl : nm.length < SNSD_MAX_SECTION_NAME_LEN
  case neg => exact Or.inl ⟨none, fun t => by rw [hhead, if_neg hl]⟩
  by_cases hname : nm.takeWhile (· != 0) = name
  · by_cases hq : 91 ∈ rest
    · obtain ⟨q, more, rfl, hq'⟩ := List.eq_append_cons_of_mem hq
      refine Or.inl ⟨some q, fun t => ?_⟩
      rw [hhead, if_pos hl, if_pos hname, List.append_assoc, takeWhile_append_of_not_mem hq']
      simp
    · refine Or.inr (Or.inl ⟨91 :: (nm ++ [93]), rest, by simp, ?_, hq, fun t => ?_⟩)
      · exact inHeader_name hnm []
      · rw [hhead, if_pos hl, if_pos hname, takeWhile_append_of_not_mem hq]
  · rw [List.length_append, List.length_cons] at hn
    rcases ih rest.length (by omega) rest hrest rfl with ⟨r, hr⟩ | ⟨a, q, rfl, ha, hq, ht⟩ | ht
    · exact Or.inl ⟨r, fun t => by rw [hhead, if_pos hl, if_neg hname, hr]⟩
    · refine Or.inr (Or.inl ⟨91 :: (nm ++ 93 :: a), q, by simp, ?_, hq, fun t => ?_⟩)
      · rw [inHeader_name hnm, ha]
      · rw [hhead, if_pos hl, if_neg hname, ht]
    · exact Or.inr (Or.inr fun t => by rw [hhead, if_pos hl, if_neg hname, ht])

end NvmeSnsd.Cfg
