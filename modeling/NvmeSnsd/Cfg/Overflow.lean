import NvmeSnsd.Cfg.Pieces

/-! Which files are parsed without a write past the end of a buffer. -/
namespace NvmeSnsd.Cfg
open Lib

/-! An item, once it is split, is always stored within its field. -/

theorem checkValidity_ok (o : Outside) (s : CfgState) (check : CheckValidity)
    (drvOption value : Bytes) : ∃ r, checkValidity o s check drvOption value = .ok r := by
  cases check with
  | baseHostnqn =>
    by_cases hl : value.length ≥ SNSD_NQN_MAX_LEN
    · exact ⟨none, if_pos hl⟩
    · have hroom : 0+value.length ≤ SNSD_NQN_MAX_LEN := by omega
      refine ⟨some ({ s with snsdHostnqn := s.snsdHostnqn.write 0 value }, value), ?_⟩
      rw [checkValidity, if_neg hl, Mem.store_ok hroom]
      rfl
  | none => exact ⟨_, rfl⟩
  | unsupport => exact ⟨_, rfl⟩
  | ip => exact ⟨_, rfl⟩
  | para => exact ⟨_, rfl⟩
  | noarg => exact ⟨_, rfl⟩
  | hostnqn => exact ⟨_, rfl⟩
  | protocol => exact ⟨_, rfl⟩

theorem saveOneItem_ok (o : Outside) (sectionName name value : Bytes) (s : CfgState) :
    ∃ r, snsdSaveOneItem o sectionName name value s = .ok r := by
  rw [snsdSaveOneItem]
  obtain ⟨r, cmdline⟩ := sectionTable sectionName
  simp only
  cases cmdline.find? (·.named name) with
  | none => exact ⟨_, rfl⟩
  | some c =>
    obtain ⟨v, hv⟩ := checkValidity_ok o s c.checkValidity c.drvOption value
    simp only [snsdCheckAndSave, hv, ok_bind]
    rcases v with _ | ⟨s', value'⟩
    · exact ⟨_, rfl⟩
    cases c.field with
    | int f d => exact ⟨_, rfl⟩
    | str f =>
      by_cases hl : value'.length ≥ f.size
      · exact ⟨_, if_pos hl⟩
      · exact ⟨_, if_neg hl⟩

theorem runItem_ok (o : Outside) (sectionName part : Bytes) (s : CfgState) :
    ∃ r, runItem o sectionName part s = .ok r := by
  rw [runItem]
  rcases itemOf part with _ | ⟨name, value⟩
  · exact ⟨_, rfl⟩
  · obtain ⟨r, hr⟩ := saveOneItem_ok o sectionName name value s
    simp only [hr, ok_bind]
    exact ⟨_, rfl⟩

theorem runParts_ok (o : Outside) (sectionName : Bytes) (parts : List Bytes) (s : CfgState) :
    ∃ r, runParts o sectionName parts s = .ok r := by
  induction parts generalizing s with
  | nil => exact ⟨_, rfl⟩
  | cons part parts ih =>
    rw [runParts]
    by_cases hl : SNSD_CFG_NAME_MAX_LEN < part.length
    · exact ⟨_, if_pos hl⟩
    · obtain ⟨⟨s', ret⟩, hr⟩ := runItem_ok o sectionName part s
      rw [if_neg hl]
      simp only [hr, ok_bind]
      by_cases hret : ret ≠ 0
      · exact ⟨_, if_pos hret⟩
      · rw [if_neg hret]
        exact ih s'

theorem runLine_ok (o : Outside) (sectionName line : Bytes) (s : CfgState) :
    ∃ r, runLine o sectionName line s = .ok r := by
  obtain ⟨⟨s', ret⟩, hr⟩ := runParts_ok o sectionName ((lineText line).splitOn 124) (snsdInitCfg s)
  rw [runLine]
  simp only [hr, ok_bind]
  by_cases hret : ret ≠ 0
  · exact ⟨_, if_pos hret⟩
  · rw [if_neg hret]
    by_cases hret' : (snsdAddOneCfg sectionName s').2 ≠ 0
    · exact ⟨_, if_pos hret'⟩
    · exact ⟨_, if_neg hret'⟩

/-! The copy of a line is the one write that is not bounded. -/

/-- Every line up to the first that is rejected fits `tmp_line` with its
terminator. -/
def LinesFit (o : Outside) (sectionName : Bytes) : List Bytes → CfgState → Prop
  | [], _ => True
  | line :: lines, s => line.length < SNSD_CFG_VALUE_MAX_LEN ∧
      ∀ s', runLine o sectionName line s = .ok (s', 0) → LinesFit o sectionName lines s'

theorem runLines_ok_iff (o : Outside) (sectionName : Bytes) (lines : List Bytes) (s : CfgState) :
    (∃ r, runLines o sectionName lines s = .ok r) ↔ LinesFit o sectionName lines s := by
  induction lines generalizing s with
  | nil => exact ⟨fun _ => trivial, fun _ => ⟨_, rfl⟩⟩
  | cons line lines ih =>
    rw [runLines, LinesFit]
    by_cases hl : line.length ≥ SNSD_CFG_VALUE_MAX_LEN
    · rw [if_pos hl]
      constructor
      · rintro ⟨r, hr⟩
        simp at hr
      · exact fun h => absurd hl (Nat.not_le_of_lt h.1)
    obtain ⟨⟨s', ret⟩, hr⟩ := runLine_ok o sectionName line s
    rw [if_neg hl, hr]
    simp only [ok_bind]
    by_cases hret : ret ≠ 0
    · -- the rest is not looked at
      rw [if_pos hret]
      refine ⟨fun _ => ⟨Nat.lt_of_not_le hl, fun t ht => ?_⟩, fun _ => ⟨_, rfl⟩⟩
      obtain ⟨-, h0⟩ := Prod.mk.inj (Except.ok.inj ht)
      exact absurd h0 hret
    · rw [if_neg hret, ih s']
      rw [ne_eq, not_not] at hret
      subst hret
      constructor
      · intro h
        refine ⟨Nat.lt_of_not_le hl, fun t ht => ?_⟩
        obtain ⟨rfl, -⟩ := Prod.mk.inj (Except.ok.inj ht)
        exact h
      · exact fun h => h.2 s' rfl

theorem linesFit_of_forall {o : Outside} {sectionName : Bytes} {lines : List Bytes}
    (h : ∀ line ∈ lines, line.length < SNSD_CFG_VALUE_MAX_LEN) (s : CfgState) :
    LinesFit o sectionName lines s := by
  induction lines generalizing s with
  | nil => trivial
  | cons line lines ih =>
    refine ⟨h line List.mem_cons_self, fun s' _ => ih (fun l hl => h l ?_) s'⟩
    exact List.mem_cons_of_mem _ hl

/-- Reading a section goes wrong in one way only: an item line that is copied and
does not fit. -/
theorem section_parse_safe_iff (o : Outside) (file sectionName : Bytes) (s : CfgState) :
    (∃ r, snsdGetSectionInfo o file sectionName s = .ok r) ↔
      (file.length < SNSD_CFG_FILE_MAX_SIZE → ∀ t, sectionText sectionName file = some t →
        LinesFit o sectionName (itemLines (blankFree t)) s) := by
  by_cases hl : file.length < SNSD_CFG_FILE_MAX_SIZE
  case neg =>
    refine ⟨fun _ h => absurd h hl, fun _ => ⟨(s, -EPERM), ?_⟩⟩
    rw [snsdGetSectionInfo, snsdSectionLoad, if_pos (Nat.le_of_not_lt hl)]
    rfl
  rw [getSectionInfo_eq o sectionName s hl]
  cases ht : sectionText sectionName file with
  | none =>
    refine ⟨fun _ _ t h => ?_, fun _ => ⟨_, rfl⟩⟩
    simp at h
  | some t =>
    simp only
    rw [runLines_ok_iff]
    constructor
    · intro h _ u hu
      obtain rfl := Option.some.inj hu
      exact h
    · exact fun h => h hl t rfl

/-! A line that does not fit. -/

def longFile : Bytes := ascii "[BASE]\n" ++ List.replicate SNSD_CFG_VALUE_MAX_LEN 97

theorem longFile_length : longFile.length = 1030 := by
  rw [longFile, List.length_append, List.length_replicate]
  rfl

theorem longFile_text : sectionText SNSD_SECTION_BASE_NAME longFile =
    some (10 :: List.replicate SNSD_CFG_VALUE_MAX_LEN 97) := by
  have hfile : longFile = 91 :: 66 :: 65 :: 83 :: 69 :: 93 :: 10 ::
      List.replicate SNSD_CFG_VALUE_MAX_LEN 97 := rfl
  generalize hn : SNSD_CFG_VALUE_MAX_LEN = n at *
  have hmem : 93 ∈ (66 :: 65 :: 83 :: 69 :: 93 :: 10 :: List.replicate n 97 : Bytes).take
      SNSD_MAX_SECTION_NAME_LEN := by simp [SNSD_MAX_SECTION_NAME_LEN]
  have hname : ((66 :: 65 :: 83 :: 69 :: 93 :: 10 :: List.replicate n 97).takeWhile
      (· != 93)).takeWhile (· != 0) = SNSD_SECTION_BASE_NAME := by
    simp [SNSD_SECTION_BASE_NAME, ascii]
  have hafter : afterName (66 :: 65 :: 83 :: 69 :: 93 :: 10 :: List.replicate n 97) =
      10 :: List.replicate n 97 := by simp [afterName]
  have hall : (10 :: List.replicate n 97 : Bytes).takeWhile (· != 91) = 10 :: List.replicate n 97 := by
    rw [List.takeWhile_eq_self_iff]
    intro b hb
    rcases List.mem_cons.mp hb with rfl | hb
    · decide
    · rw [List.eq_of_mem_replicate hb]
      decide
  rw [hfile, sectionText, if_pos rfl, if_pos hmem, if_pos hname, hafter, hall]

theorem longFile_lines : itemLines (blankFree (10 :: List.replicate SNSD_CFG_VALUE_MAX_LEN 97)) =
    [List.replicate SNSD_CFG_VALUE_MAX_LEN 97] := by
  have hplain : ∀ b ∈ List.replicate SNSD_CFG_VALUE_MAX_LEN (97 : UInt8),
      isSpace b = false ∧ isMark b = false := by
    intro b hb
    rw [List.eq_of_mem_replicate hb]
    decide
  have hfree : blankFree (10 :: List.replicate SNSD_CFG_VALUE_MAX_LEN 97) =
      10 :: List.replicate SNSD_CFG_VALUE_MAX_LEN 97 := by
    rw [blankFree, List.foldl_cons]
    exact congrArg Prod.fst (foldl_blankStep_plain hplain [10] true)
  have hline : (List.replicate 1022 (97 : UInt8)).takeWhile inLine = List.replicate 1022 97 := by
    rw [List.takeWhile_eq_self_iff]
    intro b hb
    rw [List.eq_of_mem_replicate hb]
    decide
  have hrest : (List.replicate 1022 (97 : UInt8)).dropWhile inLine = [] := by
    rw [List.dropWhile_eq_nil_iff]
    intro b hb
    rw [List.eq_of_mem_replicate hb]
    decide
  rw [hfree, itemLines_space _ (by decide)]
  change itemLines (List.replicate (1022+1) 97) = [List.replicate (1022+1) 97]
  rw [List.replicate_succ, itemLines, if_neg (by decide), if_neg (by decide), hline, hrest, itemLines]

/-- A line of 1023 characters: its terminator is written behind `tmp_line`. -/
theorem long_line_overflows : longFile.length < SNSD_CFG_FILE_MAX_SIZE ∧ ∀ o s,
    snsdGetSectionInfo o longFile SNSD_SECTION_BASE_NAME s =
      .error (.store SNSD_CFG_VALUE_MAX_LEN 1 SNSD_CFG_VALUE_MAX_LEN) := by
  have hl : longFile.length < SNSD_CFG_FILE_MAX_SIZE := by
    rw [longFile_length]
    decide
  refine ⟨hl, fun o s => ?_⟩
  have hlong : (List.replicate SNSD_CFG_VALUE_MAX_LEN (97 : UInt8)).length ≥
      SNSD_CFG_VALUE_MAX_LEN := by rw [List.length_replicate]
  rw [getSectionInfo_eq o _ s hl, longFile_text]
  simp only
  rw [longFile_lines, runLines, if_pos hlong]

end NvmeSnsd.Cfg
