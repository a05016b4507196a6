import NvmeSnsd.Cfg.Pieces

/-! What the text of a comment has to do with the result. -/
namespace NvmeSnsd.Cfg
open Lib

/-! Items with a comment behind them. -/

theorem wordOf_comment (p e : Bytes) : wordOf (p ++ 59 :: e) =
    some ((p.dropWhile isSpace).takeWhile (fun b => !isWordEnd b),
      (p.dropWhile isSpace).dropWhile (fun b => !isWordEnd b) ++ 59 :: e) := by
  have hblank : allBlank (p ++ 59 :: e) = false := by
    have h59 : isSpace 59 = false := by decide
    simp [allBlank, h59]
  have hend : (!isWordEnd 59) = false := by decide
  rw [wordOf, hblank, dropWhile_append_stop (by decide)]
  simp only [Bool.false_eq_true, if_false]
  rw [takeWhile_append_stop (p := fun b => !isWordEnd b) hend,
    dropWhile_append_stop (p := fun b => !isWordEnd b) hend]

/-- An item ends at its comment. -/
theorem itemOf_comment (p e : Bytes) : itemOf (p ++ 59 :: e) = itemOf (p ++ [59]) := by
  rw [itemOf, itemOf, wordOf_comment, wordOf_comment p []]
  simp only [Option.bind_some]
  generalize (p.dropWhile isSpace).dropWhile (fun b => !isWordEnd b) = r
  have h59 : isBlank 59 = false := by decide
  rw [dropWhile_append_stop h59, dropWhile_append_stop h59]
  rcases r.dropWhile isBlank with _ | ⟨c, u⟩
  · rfl
  · rw [List.cons_append, List.cons_append, List.head?_cons, List.head?_cons, List.tail_cons,
      List.tail_cons, wordOf_comment, wordOf_comment u []]
    rfl

/-- The last part of a line takes what follows the line. -/
theorem splitOn_append_tail (m : Bytes) : ∃ ps : List Bytes, ∀ w, 124 ∉ w →
    (m ++ w).splitOn 124 = ps ++ [m.rtakeWhile (· != 124) ++ w] := by
  induction hn : m.length using Nat.strong_induction_on generalizing m with
  | _ n ih =>
  by_cases h : 124 ∈ m
  · obtain ⟨a, rest, rfl, ha⟩ := List.eq_append_cons_of_mem h
    rw [List.length_append, List.length_cons] at hn
    obtain ⟨ps, hps⟩ := ih rest.length (by omega) rest rfl
    refine ⟨a :: ps, fun w hw => ?_⟩
    have htail : (a ++ 124 :: rest).rtakeWhile (· != 124) = rest.rtakeWhile (· != 124) := by
      rw [List.rtakeWhile, List.rtakeWhile, List.reverse_append, List.reverse_cons,
        List.append_assoc, List.singleton_append, takeWhile_append_stop (by decide)]
    rw [List.append_assoc, List.cons_append, List.splitOn_append_cons_self_of_not_mem ha, hps w hw,
      htail, List.cons_append]
  · refine ⟨[], fun w hw => ?_⟩
    have hall : m.rtakeWhile (· != 124) = m := by
      rw [List.rtakeWhile_eq_self_iff]
      intro b hb
      simp only [bne_iff_ne]
      rintro rfl
      exact h hb
    have hmem : 124 ∉ m ++ w := by
      rw [List.mem_append, not_or]
      exact ⟨h, hw⟩
    rw [List.splitOn_eq_singleton hmem, hall, List.nil_append]

theorem runParts_append_congr {o : Outside} {sectionName : Bytes} {x y : List Bytes}
    (h : ∀ s, runParts o sectionName x s = runParts o sectionName y s) (ps : List Bytes)
    (s : CfgState) :
    runParts o sectionName (ps ++ x) s = runParts o sectionName (ps ++ y) s := by
  induction ps generalizing s with
  | nil => exact h s
  | cons p ps ih =>
    rw [List.cons_append, List.cons_append, runParts, runParts]
    simp only [ih]

/-- A line with an item: what its comment says does not matter, as long as it
leaves the item and the line their room. -/
theorem runLine_comment (o : Outside) (sectionName m : Bytes) {e e' : Bytes} (h : 124 ∉ e)
    (h' : 124 ∉ e') (hl : (m.rtakeWhile (· != 124)).length+e.length < SNSD_CFG_NAME_MAX_LEN)
    (hl' : (m.rtakeWhile (· != 124)).length+e'.length < SNSD_CFG_NAME_MAX_LEN) (s : CfgState) :
    runLine o sectionName (m ++ 59 :: e) s = runLine o sectionName (m ++ 59 :: e') s := by
  by_cases h0 : 0 ∈ m
  · -- the line ends before the comment
    obtain ⟨a, rest, rfl, -⟩ := List.eq_append_cons_of_mem h0
    have htext : ∀ w : Bytes, lineText (a ++ 0 :: rest ++ w) = lineText a := by
      intro w
      rw [lineText, List.append_assoc, List.cons_append, takeWhile_append_stop (by decide), lineText]
    rw [runLine, runLine, htext, htext]
  have htext : ∀ w : Bytes, lineText (m ++ 59 :: w) = m ++ 59 :: lineText w := by
    intro w
    rw [lineText, List.takeWhile_append_of_pos, List.takeWhile_cons_of_pos (by decide), lineText]
    intro b hb
    simp only [bne_iff_ne]
    rintro rfl
    exact h0 hb
  have hsub : ∀ w : Bytes, (lineText w).length ≤ w.length := fun w => (List.takeWhile_prefix _).length_le
  have hmem : ∀ w : Bytes, 124 ∉ w → 124 ∉ 59 :: lineText w := by
    intro w hw
    rw [List.mem_cons, not_or]
    exact ⟨by decide, fun h => hw ((List.takeWhile_prefix _).subset h)⟩
  obtain ⟨ps, hps⟩ := splitOn_append_tail m
  have hparts : ∀ t, runParts o sectionName [m.rtakeWhile (· != 124) ++ 59 :: lineText e] t =
      runParts o sectionName [m.rtakeWhile (· != 124) ++ 59 :: lineText e'] t := by
    intro t
    have hle := hsub e
    have hle' := hsub e'
    have hfit : ∀ w : Bytes, (m.rtakeWhile (· != 124)).length+w.length < SNSD_CFG_NAME_MAX_LEN →
        ¬SNSD_CFG_NAME_MAX_LEN < (m.rtakeWhile (· != 124) ++ 59 :: w).length := by
      intro w hw
      rw [List.length_append, List.length_cons]
      omega
    rw [runParts, if_neg (hfit _ (by omega)), runParts, if_neg (hfit _ (by omega)), runItem,
      itemOf_comment, runItem, itemOf_comment _ (lineText e')]
  rw [runLine, runLine, htext, htext, hps _ (hmem e h), hps _ (hmem e' h'),
    runParts_append_congr hparts]

theorem runLines_congr {o : Outside} {sectionName x y : Bytes}
    (h : ∀ s, runLine o sectionName x s = runLine o sectionName y s)
    (hx : x.length < SNSD_CFG_VALUE_MAX_LEN) (hy : y.length < SNSD_CFG_VALUE_MAX_LEN)
    (ls more : List Bytes) (s : CfgState) :
    runLines o sectionName (ls ++ x :: more) s = runLines o sectionName (ls ++ y :: more) s := by
  induction ls generalizing s with
  | nil =>
    rw [List.nil_append, List.nil_append, runLines, runLines, if_neg (Nat.not_le_of_lt hx),
      if_neg (Nat.not_le_of_lt hy), h]
  | cons l ls ih =>
    rw [List.cons_append, List.cons_append, runLines, runLines]
    simp only [ih]

/-! The lines of a section with a comment in it. -/

/-- A section up to the start of a line. -/
def LineStart (a : Bytes) : Prop := a = [] ∨ ∃ p b, a = p ++ [b] ∧ isNl b = true

/-- What is left of a comment when the blanks are out. -/
def residue (c : Bytes) : Bytes := (c.foldl blankStep ([], false)).1

theorem blankFree_comment (l c : Bytes) :
    blankFree (l ++ 59 :: c) = blankFree l ++ 59 :: residue c := by
  have hstep : ∀ s, blankStep s 59 = (s.1 ++ [59], false) := by
    intro s
    rw [blankStep, if_neg (by decide), if_pos (by decide)]
  have hrest := foldl_blankStep_append
    (trimEnd_append_ne (blankFree l) (b := 59) (by decide)) c [] false
  rw [List.append_nil] at hrest
  rw [blankFree, List.foldl_append, List.foldl_cons, hstep]
  change (c.foldl blankStep (blankFree l ++ [59], false)).1 = _
  rw [hrest, residue, List.append_assoc, List.singleton_append]

theorem lines_before {a : Bytes} (h : LineStart a) :
    ∃ xs, ∀ t, itemLines (blankFree (a ++ t)) = xs ++ itemLines (blankFree t) := by
  rcases h with rfl | ⟨p, b, rfl, hb⟩
  · exact ⟨[], fun t => rfl⟩
  · refine ⟨itemLines (trimEnd (blankFree p)), fun t => ?_⟩
    rw [List.append_assoc, List.singleton_append, blankFree_nl hb, itemLines_nl hb]

/-- The end of a line takes the blanks before it away. -/
def lineEnd (post line : Bytes) : Bytes := if post = [] then line else trimEnd line

theorem lines_after {post : Bytes} (h : ∀ b, post.head? = some b → isNl b = true) :
    ∃ ys, ∀ t, itemLines (blankFree (t ++ post)) = itemLines (lineEnd post (blankFree t)) ++ ys := by
  rcases post with _ | ⟨b, p⟩
  · refine ⟨[], fun t => ?_⟩
    rw [List.append_nil, List.append_nil, lineEnd, if_pos rfl]
  · have hb : isNl b = true := h b List.head?_cons
    refine ⟨itemLines (blankFree p), fun t => ?_⟩
    rw [blankFree_nl hb, itemLines_nl hb, lineEnd, if_neg (List.cons_ne_nil _ _)]

theorem lineEnd_comment (post m e : Bytes) :
    ∃ w, lineEnd post (m ++ 59 :: e) = m ++ 59 :: w ∧ w <+: e := by
  by_cases hp : post = []
  · exact ⟨e, if_pos hp, List.prefix_rfl⟩
  · refine ⟨trimEnd e, ?_, List.rdropWhile_prefix _ _⟩
    rw [lineEnd, if_neg hp, List.append_cons, trimEnd_append (trimEnd_append_ne m (by decide)),
      List.append_assoc, List.singleton_append]

/-- The line of a comment. -/
theorem itemLines_comment {m e : Bytes} (hm : ∀ b ∈ m, isNl b = false ∧ b ≠ 59)
    (he : ∀ b ∈ e, isNl b = false) :
    itemLines (m ++ 59 :: e) =
      if m.dropWhile isSpace = [] then [] else [m.dropWhile isSpace ++ 59 :: e] := by
  have hline : ∀ b ∈ m ++ 59 :: e, isNl b = false := by
    intro b hb
    rcases List.mem_append.mp hb with hb | hb
    · exact (hm b hb).1
    · rcases List.mem_cons.mp hb with rfl | hb
      · decide
      · exact he b hb
  rw [itemLines_line hline, dropWhile_append_stop (by decide)]
  have hsub : ∀ b ∈ m.dropWhile isSpace, b ≠ 59 :=
    fun b hb => (hm b ((List.dropWhile_suffix _).subset hb)).2
  generalize m.dropWhile isSpace = u at *
  rcases u with _ | ⟨c, cs⟩
  · rw [List.nil_append, List.head?_cons, Option.getD_some, if_pos rfl, if_pos rfl]
  · rw [List.cons_append, List.head?_cons, Option.getD_some, if_neg (hsub c List.mem_cons_self),
      if_neg (List.cons_ne_nil _ _)]

/-- A comment behind the text `l` of a line: it has no bracket in it, and where
`l` holds an item, no bar either and enough room. -/
structure CommentText (l c : Bytes) : Prop where
  oneLine : ∀ b ∈ c, isNl b = false
  noBracket : 91 ∉ c
  item : (∃ b ∈ l, isSpace b = false) → 124 ∉ c ∧
    (blankFree (l ++ 59 :: c)).length < SNSD_CFG_VALUE_MAX_LEN ∧
    ((blankFree (l ++ 59 :: c)).rtakeWhile (· != 124)).length ≤ SNSD_CFG_NAME_MAX_LEN

theorem rtakeWhile_comment (m : Bytes) {e : Bytes} (h : 124 ∉ e) :
    (m ++ 59 :: e).rtakeWhile (· != 124) = m.rtakeWhile (· != 124) ++ 59 :: e := by
  have hall : ∀ b ∈ (59 :: e).reverse, (b != 124) = true := by
    intro b hb
    rw [bne_iff_ne]
    rintro rfl
    rcases List.mem_cons.mp (List.mem_reverse.mp hb) with h59 | hb
    · exact absurd h59 (by decide)
    · exact h hb
  rw [List.rtakeWhile, List.rtakeWhile, List.reverse_append, List.takeWhile_append_of_pos hall,
    List.reverse_append, List.reverse_reverse]

theorem rtakeWhile_dropWhile_length_le (p r : UInt8 → Bool) (m : Bytes) :
    ((m.dropWhile p).rtakeWhile r).length ≤ (m.rtakeWhile r).length := by
  obtain ⟨a, ha⟩ := List.dropWhile_suffix (l := m) p
  have hrev : m.reverse = (m.dropWhile p).reverse ++ a.reverse := by
    rw [← List.reverse_append, ha]
  rw [List.rtakeWhile, List.rtakeWhile, List.length_reverse, List.length_reverse, hrev,
    List.takeWhile_append]
  split
  · rename_i h
    rw [List.length_append, h]
    exact Nat.le_add_right _ _
  · exact le_rfl

/-- The lines of a section come to the same with either comment. -/
theorem runLines_comment (o : Outside) (sectionName : Bytes) {a l c c' post : Bytes}
    (ha : LineStart a) (hl : ∀ b ∈ l, isNl b = false ∧ b ≠ 59)
    (hpost : ∀ b, post.head? = some b → isNl b = true) (hc : CommentText l c)
    (hc' : CommentText l c') (s : CfgState) :
    runLines o sectionName (itemLines (blankFree (a ++ (l ++ 59 :: c ++ post)))) s =
      runLines o sectionName (itemLines (blankFree (a ++ (l ++ 59 :: c' ++ post)))) s := by
  obtain ⟨xs, hxs⟩ := lines_before ha
  obtain ⟨ys, hys⟩ := lines_after hpost
  have hm : ∀ b ∈ blankFree l, isNl b = false ∧ b ≠ 59 := fun b hb => hl b (mem_blankFree hb)
  have hres : ∀ d : Bytes, (∀ b ∈ d, isNl b = false) → ∀ b ∈ residue d, isNl b = false :=
    fun d hd b hb => hd b ((mem_foldl_blankStep hb).resolve_left List.not_mem_nil)
  obtain ⟨w, hw, hpre⟩ := lineEnd_comment post (blankFree l) (residue c)
  obtain ⟨w', hw', hpre'⟩ := lineEnd_comment post (blankFree l) (residue c')
  rw [hxs, hxs, hys, hys, blankFree_comment, blankFree_comment, hw, hw',
    itemLines_comment hm fun b hb => hres c hc.oneLine b (hpre.subset hb),
    itemLines_comment hm fun b hb => hres c' hc'.oneLine b (hpre'.subset hb)]
  by_cases hblank : (blankFree l).dropWhile isSpace = []
  · rw [if_pos hblank, if_pos hblank]
  -- there is an item before the comment
  have hitem : ∃ b ∈ l, isSpace b = false := by
    rw [List.dropWhile_eq_nil_iff] at hblank
    push Not at hblank
    obtain ⟨b, hb, hsp⟩ := hblank
    exact ⟨b, mem_blankFree hb, by simpa using hsp⟩
  have hbar : ∀ d : Bytes, 124 ∉ d → ∀ v : Bytes, v <+: residue d → 124 ∉ v :=
    fun d hd v hv h => hd ((mem_foldl_blankStep (hv.subset h)).resolve_left List.not_mem_nil)
  have hroom : ∀ d v : Bytes, CommentText l d → v <+: residue d →
      ((blankFree l).dropWhile isSpace ++ 59 :: v).length < SNSD_CFG_VALUE_MAX_LEN ∧
        (((blankFree l).dropWhile isSpace).rtakeWhile (· != 124)).length+v.length <
          SNSD_CFG_NAME_MAX_LEN := by
    intro d v hd hv
    obtain ⟨hno, hline, hpart⟩ := hd.item hitem
    have hd' : 124 ∉ residue d := hbar d hno _ List.prefix_rfl
    rw [blankFree_comment, List.length_append, List.length_cons] at hline
    rw [blankFree_comment, rtakeWhile_comment _ hd', List.length_append, List.length_cons] at hpart
    have h1 := List.length_dropWhile_le isSpace (blankFree l)
    have h2 := rtakeWhile_dropWhile_length_le isSpace (· != 124) (blankFree l)
    have h3 := hv.length_le
    constructor
    · rw [List.length_append, List.length_cons]
      omega
    · omega
  obtain ⟨hline, hpart⟩ := hroom c w hc hpre
  obtain ⟨hline', hpart'⟩ := hroom c' w' hc' hpre'
  rw [if_neg hblank, if_neg hblank, List.singleton_append, List.singleton_append]
  apply runLines_congr ?_ hline hline'
  exact runLine_comment o sectionName _ (hbar c (hc.item hitem).1 w hpre)
    (hbar c' (hc'.item hitem).1 w' hpre') hpart hpart'

/-! A comment in a file. -/

/-- Where a comment stands: `l` is the text before it on its line, behind the
section header when there is one, and `post` starts at the end of the line. -/
structure CommentAt (pre l post : Bytes) : Prop where
  start : LineStart pre ∨ ∃ p, pre = p ++ [93] ∧ inHeader p = true
  outside : inHeader pre = false
  line : ∀ b ∈ l, isNl b = false ∧ b ≠ 59 ∧ b ≠ 91
  stop : ∀ b, post.head? = some b → isNl b = true

theorem inHeader_append {a q : Bytes} (ha : inHeader a = false) (hq : 91 ∉ q) :
    inHeader (a ++ q) = false := by
  rw [inHeader, List.foldl_append]
  change q.foldl headerStep (inHeader a) = false
  rw [ha]
  induction q with
  | nil => rfl
  | cons b q ih =>
    rw [List.mem_cons, not_or] at hq
    have hstep : headerStep false b = false := by simp [headerStep, Ne.symm hq.1]
    rw [List.foldl_cons, hstep, ih hq.2]

/-- The part of a section before the line of the comment. -/
theorem CommentAt.lineStart {a q l post : Bytes} (h : CommentAt (a ++ q) l post)
    (ha : inHeader a = false) (hq : 91 ∉ q) : LineStart q := by
  induction q using List.reverseRecOn with
  | nil => exact Or.inl rfl
  | append_singleton q b _ =>
    rcases h.start with (h0 | ⟨p, d, hp, hd⟩) | ⟨p, hp, hin⟩
    · simp at h0
    · rw [← List.append_assoc] at hp
      obtain ⟨-, rfl⟩ := List.append_singleton_inj.mp hp
      exact Or.inr ⟨q, b, rfl, hd⟩
    · -- a header that the section does not hold
      rw [← List.append_assoc] at hp
      obtain ⟨rfl, -⟩ := List.append_singleton_inj.mp hp
      rw [List.mem_append, not_or] at hq
      rw [inHeader_append ha hq.1] at hin
      simp at hin

section Replace
variable {pre l c c' post : Bytes} (o : Outside)

/-- The file with a comment in it. -/
def withComment (pre l c post : Bytes) : Bytes := pre ++ (l ++ 59 :: c ++ post)

/-- A section is read with the same result. -/
theorem getSectionInfo_comment (hat : CommentAt pre l post) (hc : CommentText l c)
    (hc' : CommentText l c') (hsize : (withComment pre l c post).length < SNSD_CFG_FILE_MAX_SIZE ↔
      (withComment pre l c' post).length < SNSD_CFG_FILE_MAX_SIZE) (name : Bytes) (s : CfgState) :
    snsdGetSectionInfo o (withComment pre l c post) name s =
      snsdGetSectionInfo o (withComment pre l c' post) name s := by
  by_cases hl : (withComment pre l c post).length < SNSD_CFG_FILE_MAX_SIZE
  case neg =>
    have hl' := mt hsize.mpr hl
    rw [snsdGetSectionInfo, snsdSectionLoad, if_pos (Nat.le_of_not_lt hl), snsdGetSectionInfo,
      snsdSectionLoad, if_pos (Nat.le_of_not_lt hl')]
    rfl
  rw [getSectionInfo_eq o name s hl, getSectionInfo_eq o name s (hsize.mp hl)]
  have hno : ∀ d : Bytes, 91 ∉ d → 91 ∉ l ++ 59 :: d := by
    intro d hd h
    rcases List.mem_append.mp h with h | h
    · exact (hat.line 91 h).2.2 rfl
    · rcases List.mem_cons.mp h with h | h
      · exact absurd h (by decide)
      · exact hd h
  rw [withComment, withComment]
  rcases sectionText_pieces name pre hat.outside with ⟨r, hr⟩ | ⟨a, q, rfl, ha, hq, ht⟩ | ht
  · rw [hr, hr]
  · have hpost : ∀ b, (post.takeWhile (· != 91)).head? = some b → isNl b = true := by
      intro b hb
      rcases post with _ | ⟨d, p⟩
      · simp at hb
      · by_cases hd : d = 91
        · rw [List.takeWhile_cons_of_neg (by simp [hd])] at hb
          simp at hb
        · rw [List.takeWhile_cons_of_pos (by simp [hd]), List.head?_cons] at hb
          exact hat.stop b (by rw [List.head?_cons, hb])
    rw [ht, ht, takeWhile_append_of_not_mem (hno c hc.noBracket),
      takeWhile_append_of_not_mem (hno c' hc'.noBracket)]
    exact runLines_comment o name (hat.lineStart ha hq)
      (fun b hb => ⟨(hat.line b hb).1, (hat.line b hb).2.1⟩) hpost hc hc' s
  · rw [ht, ht, sectionText_skip (hno c hc.noBracket), sectionText_skip (hno c' hc'.noBracket)]

/-- Replacing a comment does not change what the configuration is read as. -/
theorem cfgInit_comment (f : HostnqnFile) (head : CfgState → SnsdMode → Bytes)
    (hat : CommentAt pre l post) (hc : CommentText l c) (hc' : CommentText l c')
    (hsize : (withComment pre l c post).length < SNSD_CFG_FILE_MAX_SIZE ↔
      (withComment pre l c' post).length < SNSD_CFG_FILE_MAX_SIZE) (s : CfgState) :
    snsdCfgInit o f head (withComment pre l c post) s =
      snsdCfgInit o f head (withComment pre l c' post) s := by
  have hsec := getSectionInfo_comment o hat hc hc' hsize
  simp only [snsdCfgInit, hsec]

end Replace

/-- A comment behind an item of the base section. -/
theorem cfgInit_comment_base :
    snsdCfgInit acceptAll ⟨true, true, none⟩ (fun _ _ => [])
        (withComment (ascii "[BASE]\n") (ascii "--hostnqn = a ") (ascii " x")
          (ascii "\n[SW]\n[DC]\n")) clearState =
      snsdCfgInit acceptAll ⟨true, true, none⟩ (fun _ _ => [])
        (withComment (ascii "[BASE]\n") (ascii "--hostnqn = a ") (ascii "y = z")
          (ascii "\n[SW]\n[DC]\n")) clearState :=
  cfgInit_comment _ _ _
    ⟨Or.inl (Or.inr ⟨ascii "[BASE]", 10, rfl, rfl⟩), by decide, forall_mem_of_all (by decide),
      fun b hb => by cases hb; decide⟩
    ⟨forall_mem_of_all (by decide), by decide, fun _ => by decide⟩
    ⟨forall_mem_of_all (by decide), by decide, fun _ => by decide⟩
    (by decide) _

/-! A comment whose text does matter: one that starts a section header, or that
makes the file too large. -/

/-- What `snsd_cfg_init` returns for a small file with a comment in it. -/
def initWithComment (c : Bytes) : Except Fault ℤ :=
  (snsdCfgInit acceptAll ⟨true, true, none⟩ (fun _ _ => [])
    (withComment (ascii "[BASE]\nhostnqn=a\n") [] c (ascii "\n[SW]\n[DC]\n")) clearState).map (·.2)

theorem comment_text_matters : (initWithComment (ascii "x")).toOption = some 0 ∧
    (initWithComment (List.replicate SNSD_CFG_FILE_MAX_SIZE 120)).toOption = some (-EPERM) ∧
    (initWithComment (ascii "[x")).toOption = some (-EPERM) := by
  refine ⟨by decide +kernel, ?_, by decide +kernel⟩
  have hsize : (withComment (ascii "[BASE]\nhostnqn=a\n") []
      (List.replicate SNSD_CFG_FILE_MAX_SIZE 120) (ascii "\n[SW]\n[DC]\n")).length ≥
      SNSD_CFG_FILE_MAX_SIZE := by
    simp only [withComment, List.length_append, List.length_cons, List.length_replicate]
    omega
  have hbase : ∀ s, snsdGetSectionInfo acceptAll (withComment (ascii "[BASE]\nhostnqn=a\n") []
      (List.replicate SNSD_CFG_FILE_MAX_SIZE 120) (ascii "\n[SW]\n[DC]\n")) SNSD_SECTION_BASE_NAME s =
      .ok (s, -EPERM) := by
    intro s
    rw [snsdGetSectionInfo, snsdSectionLoad, if_pos hsize]
    rfl
  have hneg : -EPERM ≠ 0 := by decide
  rw [initWithComment, snsdCfgInit]
  simp only [hbase, ok_bind, if_pos hneg]
  rfl

end NvmeSnsd.Cfg
