import NvmeSnsd.Cfg.LastLine

/-! Runs of blanks that are exchanged, and what a section with them comes to. -/
namespace NvmeSnsd.Cfg
open Lib

/-- `snsd_del_blank` and `snsd_section_parse` on the text of a section. -/
def sectionRead (o : Outside) (name t : Bytes) (s : CfgState) : Except Fault (CfgState × ℤ) := do
  let (sectionBuf, sectionLength) ← snsdDelBlank (⟨t, rfl⟩ : Mem t.length) t.length
  snsdSectionParse o name sectionBuf sectionLength s

/-- Only the text without its blanks counts. -/
theorem sectionRead_eq (o : Outside) (name t : Bytes) (s : CfgState) :
    sectionRead o name t s = runLines o name (itemLines (blankFree t)) s := by
  have hat : At (⟨t, rfl⟩ : Mem t.length) t.length 0 t :=
    ⟨le_rfl, [], [], (List.append_nil t).symm, rfl, Nat.zero_add _⟩
  obtain ⟨buf, hdel, hat'⟩ := delBlank_eq hat
  rw [sectionRead, hdel, ← sectionParse_loop o name (blankFree t) ((blankFree t).length+1) s hat'
    (Nat.lt_succ_self _)]
  rfl

/-! Where a run stands: at the start of a line or behind a sign, before a sign or the
end of a line, or at the end of a section whose last line has no break. -/

inductive Place
  | start
  | mark
  | last
  deriving DecidableEq

def Place.Stands : Place → Bytes → Bytes → Prop
  | start, pre, _ => pre = [] ∨ ∃ before m, pre = before ++ [m] ∧ isMark m = true
  | mark, _, post => ∃ m after, post = m :: after ∧ isMark m = true
  | last, _, post => post = []

/-- No line exceeds the buffers of the parser. -/
def FitsBuffers (t : Bytes) : Prop :=
  ∀ line ∈ itemLines (blankFree t), line.length < SNSD_CFG_VALUE_MAX_LEN ∧
    ∀ part ∈ (lineText line).splitOn 124, part.length ≤ SNSD_CFG_NAME_MAX_LEN

/-- One run may stand for the other in every text without comments. -/
def Exchange (place : Place) (r r' : Bytes) : Prop :=
  ∀ o name pre post s, place.Stands pre post → 59 ∉ pre → 59 ∉ post →
    FitsBuffers (pre ++ r ++ post) → FitsBuffers (pre ++ r' ++ post) →
    sectionRead o name (pre ++ r ++ post) s = sectionRead o name (pre ++ r' ++ post) s

/-- What is left of a run: all of it at the end of a section, what stands before its last
spaces at a mark, and nothing behind one. -/
def leftOf : Place → Bytes → Bytes
  | .start, _ => []
  | .mark, r => trimEnd r
  | .last, r => r

/-! Exchanging is enough. -/

section Exchange
variable {r r' pre post : Bytes} {place : Place}

theorem isSpace_of_isBlank {b : UInt8} (h : isBlank b = true) :
    isSpace b = true ∧ isMark b = false := by
  simp only [isBlank, Bool.or_eq_true, beq_iff_eq] at h
  rcases h with rfl | rfl <;> decide

/-- Behind a mark blanks are left out, elsewhere they are kept for now. -/
theorem foldl_blanks (hr : ∀ b ∈ r, isBlank b = true) (t : Bytes) (flag : Bool) :
    r.foldl blankStep (t, flag) = (if flag then t else t ++ r, flag) := by
  induction r generalizing t with
  | nil => cases flag <;> simp
  | cons b r ih =>
    obtain ⟨hs, hm⟩ := isSpace_of_isBlank (hr b List.mem_cons_self)
    have hstep : blankStep (t, flag) b = (if flag then t else t ++ [b], flag) := by
      rw [blankStep, if_neg (by simp [hm]), if_neg (by simp [hs])]
      cases flag <;> rfl
    rw [List.foldl_cons, hstep, ih fun c hc => hr c (List.mem_cons_of_mem _ hc)]
    cases flag <;> simp

theorem foldl_start (h : Place.start.Stands pre post) :
    (pre.foldl blankStep ([], true)).2 = true := by
  rcases h with rfl | ⟨before, m, rfl, hm⟩
  · rfl
  · rw [List.foldl_append, List.foldl_cons, List.foldl_nil, blankStep, if_pos hm]

/-- The spaces at the end are gone either way. -/
theorem trimEnd_append_trimEnd (t r : Bytes) : trimEnd (t ++ trimEnd r) = trimEnd (t ++ r) := by
  induction r using List.reverseRecOn with
  | nil => rfl
  | append_singleton r b ih =>
    by_cases hb : b = 32
    · have h1 : trimEnd (r ++ [b]) = trimEnd r :=
        List.rdropWhile_concat_pos _ _ _ (by simpa using hb)
      have h2 : trimEnd (t ++ r ++ [b]) = trimEnd (t ++ r) :=
        List.rdropWhile_concat_pos _ _ _ (by simpa using hb)
      rw [h1, ih, ← List.append_assoc, h2]
    · rw [trimEnd_append_ne r hb]

theorem blankFree_alike (hr : ∀ b ∈ r, isBlank b = true) (hr' : ∀ b ∈ r', isBlank b = true)
    (hstands : place.Stands pre post) (h : leftOf place r = leftOf place r') :
    blankFree (pre ++ r ++ post) = blankFree (pre ++ r' ++ post) := by
  rw [blankFree, blankFree, List.foldl_append, List.foldl_append, List.foldl_append,
    List.foldl_append]
  cases hpre : pre.foldl blankStep ([], true) with
  | mk t flag =>
    rw [foldl_blanks hr, foldl_blanks hr']
    cases place with
    | start =>
      have hflag := foldl_start hstands
      rw [hpre] at hflag
      obtain rfl : flag = true := hflag
      rfl
    | mark =>
      obtain ⟨m, after, rfl, hm⟩ := hstands
      cases flag with
      | true => rfl
      | false =>
        have htrim : trimEnd (t ++ r) = trimEnd (t ++ r') := by
          rw [← trimEnd_append_trimEnd t r, ← trimEnd_append_trimEnd t r']
          exact congrArg (fun u => trimEnd (t ++ u)) h
        have hstep (u : Bytes) : blankStep (u, false) m = (trimEnd u ++ [m], true) := if_pos hm
        rw [List.foldl_cons, List.foldl_cons, if_neg Bool.false_ne_true, if_neg Bool.false_ne_true, hstep, hstep, htrim]
    | last =>
      obtain rfl := h
      rfl

/-! And it is needed: a host name, with a run behind it. -/

/-- The line of a host name `x` and a run behind it. -/
def hostLine (r : Bytes) : Bytes := ascii "hostnqn=x" ++ r

theorem wordOf_blanks (hr : ∀ b ∈ r, isBlank b = true) : wordOf (120 :: r) = some (120 :: r, []) := by
  have hkeep : ∀ b ∈ 120 :: r, (!isWordEnd b) = true := by
    intro b hb
    rcases List.mem_cons.mp hb with rfl | hb
    · decide
    · have hblank := hr b hb
      simp only [isBlank, Bool.or_eq_true, beq_iff_eq] at hblank
      rcases hblank with rfl | rfl <;> decide
  have hnot : allBlank (120 :: r) = false := by
    rw [allBlank, List.all_cons, show isSpace 120 = false by decide, Bool.false_and, Bool.and_false]
  rw [wordOf, List.dropWhile_cons_of_neg (by decide), hnot,
    List.takeWhile_eq_self_iff.mpr hkeep, List.dropWhile_eq_nil_iff.mpr hkeep]
  rfl

theorem hostLine_item (hr : ∀ b ∈ r, isBlank b = true) :
    itemOf (hostLine r) = some (ascii "hostnqn", 120 :: r) := by
  have hkey : ∀ b ∈ ascii "hostnqn", isWordByte b = true := by
    decide +kernel
  have hstop : (fun b => !isWordEnd b) 61 = false := by
    decide
  have hword : wordOf (hostLine r) = some (ascii "hostnqn", 61 :: 120 :: r) := by
    have hsplit : hostLine r = ascii "hostnqn" ++ 61 :: 120 :: r := rfl
    obtain ⟨hdrop, hblank⟩ := dropWhile_word hkey (by decide) (61 :: 120 :: r)
    rw [hsplit, wordOf, hblank, hdrop]
    simp only [Bool.false_eq_true, if_false]
    rw [takeWhile_append_stop hstop, dropWhile_append_stop hstop,
      List.takeWhile_eq_self_iff.mpr (takeWhile_word hkey),
      List.dropWhile_eq_nil_iff.mpr (takeWhile_word hkey), List.nil_append]
  rw [itemOf, hword]
  simp only [Option.bind_some]
  rw [List.dropWhile_cons_of_neg (by decide), List.head?_cons, if_pos rfl, List.tail_cons,
    wordOf_blanks hr]
  rfl

theorem not_mem_hostLine (hr : ∀ b ∈ r, isBlank b = true) {b : UInt8}
    (hb : b ∉ ascii "hostnqn=x") (hblank : isBlank b = false) : b ∉ hostLine r := by
  rw [hostLine, List.mem_append, not_or]
  exact ⟨hb, fun h => absurd (hr b h) (by rw [hblank]; exact Bool.false_ne_true)⟩

theorem hostLine_text (hr : ∀ b ∈ r, isBlank b = true) :
    (lineText (hostLine r)).splitOn 124 = [hostLine r] := by
  have hnul : lineText (hostLine r) = hostLine r := by
    apply List.takeWhile_eq_self_iff.mpr
    intro b hb
    rw [bne_iff_ne]
    rintro rfl
    exact not_mem_hostLine hr (by decide) (by decide) hb
  rw [hnul]
  exact List.splitOn_eq_singleton (not_mem_hostLine hr (by decide) (by decide))

theorem hostLine_length (r : Bytes) : (hostLine r).length = r.length+9 := by
  rw [hostLine, List.length_append, Nat.add_comm]
  rfl

/-- The run is in the value. -/
theorem hostLine_run (hr : ∀ b ∈ r, isBlank b = true) (hl : r.length ≤ 118) (s : CfgState) :
    ∃ s', runLines acceptAll SNSD_SECTION_BASE_NAME [hostLine r] s = .ok (s', 0) ∧
      (s'.baseCfg.str .hostnqn).text = 120 :: r := by
  have hlength := hostLine_length r
  have hnul : (0 : UInt8) ∉ 120 :: r := by
    intro h
    rcases List.mem_cons.mp h with h | h
    · exact absurd h (by decide)
    · exact absurd (hr 0 h) (by decide)
  have hfit : (120 :: r).length < StrField.hostnqn.size := by
    rw [List.length_cons, show StrField.hostnqn.size = 256 from rfl]
    omega
  have hfind := find_named tableFor_base baseHostnqn_mem
    (show baseHostnqn.named (ascii "hostnqn") = true by decide +kernel)
  have hcheck : ∃ m, checkValidity acceptAll (snsdInitCfg s) baseHostnqn.checkValidity
      baseHostnqn.drvOption (120 :: r) =
        .ok (some ({ snsdInitCfg s with snsdHostnqn := m }, 120 :: r)) := by
    refine ⟨(snsdInitCfg s).snsdHostnqn.write 0 (120 :: r), ?_⟩
    have hroom : 0+(120 :: r).length ≤ SNSD_NQN_MAX_LEN := by
      rw [Nat.zero_add]
      exact hfit.le
    have hnot : ¬(120 :: r).length ≥ SNSD_NQN_MAX_LEN := Nat.not_le_of_lt hfit
    rw [show baseHostnqn.checkValidity = .baseHostnqn from rfl, checkValidity, if_neg hnot,
      Mem.store_ok hroom]
    rfl
  obtain ⟨m, hcheck⟩ := hcheck
  let after : CfgState := { snsdInitCfg s with
    snsdHostnqn := m
    baseCfg := (snsdInitCfg s).baseCfg.setStr .hostnqn (CStr.clip StrField.hostnqn.size_pos (120 :: r)) }
  have hsave : snsdSaveOneItem acceptAll SNSD_SECTION_BASE_NAME (ascii "hostnqn") (120 :: r)
      (snsdInitCfg s) = .ok (after, 0) := by
    rw [snsdSaveOneItem, sectionTable_base]
    dsimp only
    rw [hfind]
    dsimp only
    rw [snsdCheckAndSave, hcheck]
    simp only [ok_bind]
    rw [show baseHostnqn.field = .str .hostnqn from rfl]
    dsimp only
    rw [if_neg (Nat.not_le_of_lt hfit)]
    rfl
  refine ⟨after, ?_, ?_⟩
  · have hparts : runParts acceptAll SNSD_SECTION_BASE_NAME [hostLine r] (snsdInitCfg s) =
        .ok (after, 0) := by
      rw [runParts, if_neg (by rw [hlength, SNSD_CFG_NAME_MAX_LEN]; omega), runItem, hostLine_item hr]
      simp only [hsave, ok_bind]
      rfl
    have hshort : ¬(hostLine r).length ≥ SNSD_CFG_VALUE_MAX_LEN := by
      rw [hlength, SNSD_CFG_VALUE_MAX_LEN]
      omega
    rw [runLines, if_neg hshort, runLine, hostLine_text hr, hparts]
    simp only [ok_bind, ne_eq, not_true_eq_false, if_false, addOneCfg_base]
    rfl
  · exact (congrArg CStr.text (CfgFields.setStr_self _ _ _)).trans (CStr.clip_text hnul hfit)

/-- A host name shows what is left of the run behind it. -/
theorem hostLine_differ (hr : ∀ b ∈ r, isBlank b = true) (hr' : ∀ b ∈ r', isBlank b = true)
    (hl : r.length ≤ 118) (hl' : r'.length ≤ 118)
    (h : runLines acceptAll SNSD_SECTION_BASE_NAME [hostLine r] clearState =
      runLines acceptAll SNSD_SECTION_BASE_NAME [hostLine r'] clearState) : r = r' := by
  obtain ⟨s, hs, htext⟩ := hostLine_run hr hl clearState
  obtain ⟨s', hs', htext'⟩ := hostLine_run hr' hl' clearState
  rw [hs, hs'] at h
  obtain ⟨rfl, -⟩ := Prod.mk.inj (Except.ok.inj h)
  exact List.cons.inj (htext.symm.trans htext') |>.2

/-! The text around the run, at a mark and at the end. -/

theorem blank_leftOf (hr : ∀ b ∈ r, isBlank b = true) : ∀ b ∈ leftOf place r, isBlank b = true := by
  cases place with
  | start => exact fun b hb => absurd hb List.not_mem_nil
  | mark => exact fun b hb => hr b ((List.rdropWhile_prefix _ _).subset hb)
  | last => exact hr

/-- What follows the host name there. -/
def hostEnd : Place → Bytes
  | .mark => [10]
  | _ => []

theorem hostEnd_lines (hr : ∀ b ∈ r, isBlank b = true) (hplace : place ≠ .start) :
    itemLines (blankFree (ascii "hostnqn=x" ++ r ++ hostEnd place)) = [hostLine (leftOf place r)] := by
  have hstart : (ascii "hostnqn=x").foldl blankStep ([], true) = (ascii "hostnqn=x", false) := by
    decide
  have hline {q : Bytes} (hq : ∀ b ∈ q, isBlank b = true) : itemLines (hostLine q) = [hostLine q] := by
    have hnl : ∀ b ∈ hostLine q, isNl b = false := by
      intro b hb
      rcases List.mem_append.mp hb with hb | hb
      · exact (show ∀ b ∈ ascii "hostnqn=x", isNl b = false by decide +kernel) b hb
      · have hblank := hq b hb
        simp only [isBlank, Bool.or_eq_true, beq_iff_eq] at hblank
        rcases hblank with rfl | rfl <;> decide
    rw [itemLines_line hnl]
    rfl
  rw [blankFree, List.foldl_append, List.foldl_append, hstart, foldl_blanks hr, if_neg Bool.false_ne_true]
  cases place with
  | start => exact absurd rfl hplace
  | mark =>
    have hstep : blankStep (hostLine r, false) 10 = (trimEnd (hostLine r) ++ [10], true) := if_pos (by decide)
    have htrim : trimEnd (hostLine r) = hostLine (trimEnd r) := trimEnd_append (by decide) r
    have hkept : itemLines (hostLine (leftOf .mark r)) = [hostLine (leftOf .mark r)] :=
      hline (blank_leftOf hr)
    rw [hostEnd, List.foldl_cons, List.foldl_nil]
    change itemLines (blankStep (hostLine r, false) 10).1 = _
    rw [hstep, htrim, itemLines_nl (by decide), itemLines, List.append_nil]
    exact hkept
  | last => exact hline hr

theorem hostEnd_fits (hr : ∀ b ∈ r, isBlank b = true) (hplace : place ≠ .start)
    (hl : (leftOf place r).length ≤ 118) :
    FitsBuffers (ascii "hostnqn=x" ++ r ++ hostEnd place) := by
  have hlength := hostLine_length (leftOf place r)
  rw [FitsBuffers, hostEnd_lines hr hplace, List.forall_mem_singleton,
    hostLine_text (blank_leftOf hr), List.forall_mem_singleton, SNSD_CFG_VALUE_MAX_LEN,
    SNSD_CFG_NAME_MAX_LEN]
  omega

theorem hostEnd_stands (hplace : place ≠ .start) :
    place.Stands (ascii "hostnqn=x") (hostEnd place) := by
  cases place with
  | start => exact absurd rfl hplace
  | mark => exact ⟨10, [], rfl, by decide⟩
  | last => rfl

theorem leftOf_eq_of_exchange (hr : ∀ b ∈ r, isBlank b = true) (hr' : ∀ b ∈ r', isBlank b = true)
    (hl : (leftOf place r).length ≤ 118) (hl' : (leftOf place r').length ≤ 118)
    (h : Exchange place r r') : leftOf place r = leftOf place r' := by
  by_cases hplace : place = .start
  · rw [hplace]
    rfl
  · have hend : (59 : UInt8) ∉ hostEnd place := by
      cases place <;> decide
    have hread := h acceptAll SNSD_SECTION_BASE_NAME _ _ clearState (hostEnd_stands hplace)
      (by decide) hend (hostEnd_fits hr hplace hl) (hostEnd_fits hr' hplace hl')
    rw [sectionRead_eq, sectionRead_eq, hostEnd_lines hr hplace, hostEnd_lines hr' hplace] at hread
    exact hostLine_differ (blank_leftOf hr) (blank_leftOf hr') hl hl' hread

/-- Runs with the same left of them may be exchanged, and of the runs that fit behind a
host name no others. -/
theorem blanks_exchange (hr : ∀ b ∈ r, isBlank b = true) (hr' : ∀ b ∈ r', isBlank b = true) :
    (leftOf place r = leftOf place r' → Exchange place r r') ∧
      ((leftOf place r).length ≤ 118 → (leftOf place r').length ≤ 118 →
        Exchange place r r' → leftOf place r = leftOf place r') := by
  constructor
  · intro h o name pre post s hstands _ _ _ _
    rw [sectionRead_eq, sectionRead_eq, blankFree_alike hr hr' hstands h]
  · exact leftOf_eq_of_exchange hr hr'

end Exchange

theorem blanks_exchange_spaces :
    Exchange .mark (ascii "\t ") (ascii "\t   ") ∧ ¬Exchange .last (ascii " ") (ascii "\t") := by
  have hmark : Exchange .mark (ascii "\t ") (ascii "\t   ") :=
    (blanks_exchange (by decide +kernel) (by decide +kernel)).1 (by decide)
  have hlast : Exchange .last (ascii " ") (ascii "\t") → ascii " " = ascii "\t" :=
    (blanks_exchange (by decide +kernel) (by decide +kernel)).2 (by decide) (by decide)
  exact ⟨hmark, fun h => absurd (hlast h) (by decide)⟩

/-- A tab before the equal sign is in the name, which is then unknown. -/
def tabText : Bytes := ascii "hostnqn" ++ ascii "\t" ++ ascii "=x\n"

def noTabText : Bytes := ascii "hostnqn" ++ [] ++ ascii "=x\n"

theorem tabText_fits : FitsBuffers tabText ∧ FitsBuffers noTabText := by
  have hfits {w t : Bytes} (ht : blankFree t = w ++ [10]) (hw : ∀ b ∈ w, isNl b = false)
      (hline : w.length < SNSD_CFG_VALUE_MAX_LEN) (hstart : (w.dropWhile isSpace).head?.getD 59 ≠ 59)
      (hpart : ∀ part ∈ (lineText (w.dropWhile isSpace)).splitOn 124,
        part.length ≤ SNSD_CFG_NAME_MAX_LEN) : FitsBuffers t := by
    have hlen := List.length_dropWhile_le isSpace w
    rw [FitsBuffers, ht, itemLines_nl (by decide), itemLines_line hw, if_neg hstart, itemLines,
      List.append_nil, List.forall_mem_singleton]
    exact ⟨hlen.trans_lt hline, hpart⟩
  constructor
  · exact hfits (w := ascii "hostnqn\t=x") (by decide) (by decide +kernel) (by decide) (by decide)
      (by decide)
  · exact hfits (w := ascii "hostnqn=x") (by decide) (by decide +kernel) (by decide) (by decide)
      (by decide)

theorem tab_before_equal : Place.mark.Stands (ascii "hostnqn") (ascii "=x\n") ∧
    FitsBuffers tabText ∧ FitsBuffers noTabText ∧
    sectionRead acceptAll SNSD_SECTION_BASE_NAME tabText clearState ≠
      sectionRead acceptAll SNSD_SECTION_BASE_NAME noTabText clearState := by
  refine ⟨⟨61, ascii "x\n", rfl, by decide⟩, tabText_fits.1, tabText_fits.2, fun h => ?_⟩
  have htab : (sectionRead acceptAll SNSD_SECTION_BASE_NAME tabText clearState).toOption.map
      Prod.snd = some (-1) := by
    decide +kernel
  have hnone : (sectionRead acceptAll SNSD_SECTION_BASE_NAME noTabText clearState).toOption.map
      Prod.snd = some 0 := by
    decide +kernel
  rw [h, hnone] at htab
  exact absurd (Option.some.inj htab) (by decide)

end NvmeSnsd.Cfg
