import NvmeSnsd.Cfg.Stated

/-! Lines of the base section that set the same option. -/
namespace NvmeSnsd.Cfg
open Lib

/-- The values that the lines give an option, in their order. -/
def statedValues (c : Commandline) (lines : List Bytes) : List Bytes :=
  lines.flatMap fun line => ((lineText line).splitOn 124).filterMap (valueFor c)

/-- The value of the last line for an option. -/
def lastLine (c : Commandline) (lines : List Bytes) : Option Bytes := (statedValues c lines).getLast?

/-- A setting is what a text says, and the default without one. -/
def Setting (c : Commandline) (e : CfgFields) (value : Option Bytes) : Prop :=
  match c.field with
  | .str f => (e.str f).text = value.getD invalid
  | .int f default => e.int f = value.elim default atoi

/-- The option of the base section that names the host. -/
def baseHostnqn : Commandline :=
  optionalOption "hostnqn" (.str .hostnqn) .baseHostnqn "hostnqn"

/-- The last line for its key counts, for the settings and for the name of the host. -/
structure BaseLast (lines : List Bytes) (s : CfgState) : Prop where
  settings : ∀ c ∈ baseCommandLineOptions, Setting c s.baseCfg (lastLine c lines)
  hostnqn : s.snsdHostnqn.cstr 0 = .ok ((lastLine baseHostnqn lines).getD [])

theorem lastStated_eq (c : Commandline) (parts : List Bytes) :
    lastStated c parts = (parts.filterMap (valueFor c)).getLast? := by
  rw [lastStated, List.getLast?_filterMap]

theorem lastLine_cons (c : Commandline) (line : Bytes) (lines : List Bytes) :
    lastLine c (line :: lines) = (lastLine c lines).or (stated c line) := by
  rw [lastLine, statedValues, List.flatMap_cons, List.getLast?_append, stated, lastStated_eq]
  rfl

/-! A text written over another one without its terminator. -/

def overlay (old new : Bytes) : Bytes := new ++ old.drop new.length

theorem overlay_length (old new : Bytes) : (overlay old new).length = max old.length new.length := by
  rw [overlay, List.length_append, List.length_drop]
  omega

theorem foldl_overlay_length_le {n : ℕ} (values : List Bytes) (old : Bytes) :
    (values.foldl overlay old).length ≤ n ↔ old.length ≤ n ∧ ∀ v ∈ values, v.length ≤ n := by
  induction values generalizing old with
  | nil => simp
  | cons v values ih =>
    rw [List.foldl_cons, ih, overlay_length, List.forall_mem_cons, max_le_iff, and_assoc]

/-- The last text is what is read if none before it was longer. -/
theorem foldl_overlay_eq (values : List Bytes) :
    values.foldl overlay [] = values.getLast?.getD [] ↔
      ∀ v ∈ values, v.length ≤ (values.getLast?.getD []).length := by
  rcases List.eq_nil_or_concat values with rfl | ⟨before, last, rfl⟩
  · simp
  · rw [List.concat_eq_append, List.foldl_append, List.getLast?_concat, Option.getD_some]
    have hbefore := foldl_overlay_length_le (n := last.length) before []
    rw [List.foldl_cons, List.foldl_nil, overlay, List.append_right_eq_self, List.drop_eq_nil_iff,
      hbefore, List.forall_mem_append, List.forall_mem_singleton]
    simp

/-- What the buffer of the host name holds. -/
structure HostText (m : Mem SNSD_NQN_MAX_LEN) (text : Bytes) : Prop where
  noNul : 0 ∉ text
  fits : text.length < SNSD_NQN_MAX_LEN
  bytes : m.bytes = text ++ List.replicate (SNSD_NQN_MAX_LEN-text.length) 0

theorem hostText_zero : HostText (Mem.zero SNSD_NQN_MAX_LEN) [] :=
  ⟨List.not_mem_nil, by decide, rfl⟩

section HostText
variable {m : Mem SNSD_NQN_MAX_LEN} {text value : Bytes}

theorem HostText.write (h : HostText m text) (hz : 0 ∉ value)
    (hl : value.length < SNSD_NQN_MAX_LEN) : HostText (m.write 0 value) (overlay text value) := by
  have hroom : 0+value.length ≤ SNSD_NQN_MAX_LEN := by omega
  have hfits := h.fits
  have hlength := overlay_length text value
  constructor
  · rw [overlay, List.mem_append, not_or]
    exact ⟨hz, fun h0 => h.noNul (List.mem_of_mem_drop h0)⟩
  · rw [hlength]
    exact max_lt hfits hl
  · rw [Mem.write_bytes hroom, List.take_zero, List.nil_append, Nat.zero_add, h.bytes,
      List.drop_append, List.drop_replicate, hlength, overlay, List.append_assoc]
    congr 3
    omega

theorem HostText.cstr (h : HostText m text) : m.cstr 0 = .ok text := by
  have hfits := h.fits
  obtain ⟨n, hn⟩ := Nat.exists_eq_succ_of_ne_zero (Nat.sub_ne_zero_of_lt hfits)
  apply Mem.cstr_of_read h.noNul
  rw [Mem.read, List.drop_zero, h.bytes, hn, List.replicate_succ, List.append_cons,
    List.take_left' (by simp)]

end HostText

/-! Reading the base section. -/

section Base
variable {o : Outside} {s s' : CfgState}

theorem baseHostnqn_iff : ∀ c ∈ baseCommandLineOptions,
    c.checkValidity = .baseHostnqn ↔ c = baseHostnqn := by
  decide +kernel

theorem baseHostnqn_mem : baseHostnqn ∈ baseCommandLineOptions := by
  decide +kernel

/-- Each default is what `snsd_init_cfg_with_default` stores. -/
theorem base_defaults : ∀ c ∈ baseCommandLineOptions,
    Setting c (snsdInitCfgWithDefault baseCommandLineOptions) none := by
  intro c hc
  have hdefault : ∀ c ∈ baseCommandLineOptions,
      (snsdInitCfgWithDefault baseCommandLineOptions).atDefault c.field = true := by
    decide +kernel
  have h := hdefault c hc
  rw [Setting]
  cases hf : c.field with
  | str f =>
    rw [hf] at h
    exact eq_of_beq h
  | int f d =>
    rw [hf] at h
    exact eq_of_beq h

/-- No check of the base section replaces the value. -/
theorem base_keeps_value : ∀ c ∈ baseCommandLineOptions, c.checkValidity ≠ .protocol := by
  decide +kernel

theorem Setting.takes {c : Commandline} {e e' : CfgFields} {x y : Option Bytes}
    (h : Setting c e x) (h' : Takes c e e' y) : Setting c e' (y.or x) := by
  rw [Setting] at *
  rw [Takes] at h'
  cases hf : c.field with
  | str f =>
    rw [hf] at h h'
    dsimp only at *
    cases y with
    | none => exact h'.trans h
    | some t => exact h'
  | int f _ =>
    rw [hf] at h h'
    dsimp only at *
    cases y with
    | none => exact h'.trans h
    | some t => exact h'

/-- The value of an item for the host name is written to its buffer. -/
theorem runParts_hostText (parts : List Bytes) {text : Bytes}
    (h : runParts o SNSD_SECTION_BASE_NAME parts s = .ok (s', 0)) (ht : HostText s.snsdHostnqn text) :
    HostText s'.snsdHostnqn ((parts.filterMap (valueFor baseHostnqn)).foldl overlay text) := by
  induction parts generalizing s text with
  | nil =>
    obtain ⟨rfl, -⟩ := Prod.mk.inj (Except.ok.inj h)
    exact ht
  | cons part parts ih =>
    obtain ⟨t, name, value, hof, hsave, h⟩ := runParts_cons h
    obtain ⟨c, v, hfind, hlen, -, -, rfl⟩ := saveOneItem_saved sectionTable_base hsave
    have hc := List.mem_of_find?_eq_some hfind
    rw [List.filterMap_cons, valueFor, hof]
    by_cases hname : c = baseHostnqn
    · have hcheck := (baseHostnqn_iff c hc).mpr hname
      have hnamed : baseHostnqn.named name = true := by
        rw [← hname]
        exact List.find?_some (p := fun d : Commandline => d.named name) hfind
      simp only [Option.bind_some, hnamed, if_true, List.foldl_cons]
      apply ih h
      have hafter : hostnqnAfter c.checkValidity value s.snsdHostnqn = s.snsdHostnqn.write 0 value :=
        if_pos hcheck
      rw [hafter]
      exact ht.write (itemOf_noNul hof) (hlen hcheck)
    · have hcheck : c.checkValidity ≠ .baseHostnqn := fun h => hname ((baseHostnqn_iff c hc).mp h)
      have hnamed : baseHostnqn.named name = false := by
        by_contra hn
        rw [Bool.not_eq_false] at hn
        exact hname (Option.some.inj (hfind.symm.trans (find_named tableFor_base baseHostnqn_mem hn)))
      simp only [Option.bind_some, hnamed, Bool.false_eq_true, if_false]
      apply ih h
      have hafter : hostnqnAfter c.checkValidity value s.snsdHostnqn = s.snsdHostnqn := if_neg hcheck
      rw [hafter]
      exact ht

/-- What is true after some lines. -/
structure BaseRead (lines : List Bytes) (s : CfgState) : Prop where
  settings : ∀ c ∈ baseCommandLineOptions, Setting c s.baseCfg (lastLine c lines)
  hostnqn : HostText s.snsdHostnqn ((statedValues baseHostnqn lines).foldl overlay [])

theorem runLine_read {line : Bytes} {before : List Bytes}
    (h : runLine o SNSD_SECTION_BASE_NAME line s = .ok (s', 0)) (hs : BaseRead before s) :
    BaseRead (before ++ [line]) s' := by
  obtain ⟨t, hparts, hadd⟩ := runLine_parts h
  rw [addOneCfg_base] at hadd
  obtain ⟨rfl, -⟩ := Prod.mk.inj hadd
  constructor
  · intro c hc
    have htakes := runParts_takes tableFor_base hc (base_keeps_value c hc) _ hparts
    have hset := (hs.settings c hc).takes htakes
    rw [lastLine, statedValues, List.flatMap_append, List.flatMap_singleton, List.getLast?_append,
      ← lastStated_eq]
    exact hset
  · rw [statedValues, List.flatMap_append, List.flatMap_singleton, List.foldl_append]
    exact runParts_hostText _ hparts hs.hostnqn

theorem runLines_read (lines : List Bytes) {before : List Bytes}
    (h : runLines o SNSD_SECTION_BASE_NAME lines s = .ok (s', 0)) (hs : BaseRead before s) :
    BaseRead (before ++ lines) s' := by
  induction lines generalizing s before with
  | nil =>
    obtain ⟨rfl, -⟩ := Prod.mk.inj (Except.ok.inj h)
    rwa [List.append_nil]
  | cons line lines ih =>
    obtain ⟨t, hline, hrest⟩ := runLines_cons h
    rw [List.append_cons]
    exact ih hrest (runLine_read hline hs)

end Base

/-- The last line for its key counts exactly if no line before it names the host with
a longer text. -/
theorem base_last_line_iff {o : Outside} {s s' : CfgState} {file : Bytes}
    (h : snsdGetSectionInfo o file SNSD_SECTION_BASE_NAME (startCfg s) = .ok (s', 0)) :
    BaseLast (sectionLines SNSD_SECTION_BASE_NAME file) s' ↔
      ∀ v ∈ statedValues baseHostnqn (sectionLines SNSD_SECTION_BASE_NAME file),
        v.length ≤ ((lastLine baseHostnqn (sectionLines SNSD_SECTION_BASE_NAME file)).getD []).length := by
  have hstart : BaseRead [] (startCfg s) := ⟨base_defaults, hostText_zero⟩
  have hread := runLines_read _ (getSectionInfo_lines h) hstart
  rw [List.nil_append] at hread
  generalize sectionLines SNSD_SECTION_BASE_NAME file = lines at *
  have hcstr := hread.hostnqn.cstr
  rw [lastLine, ← foldl_overlay_eq]
  constructor
  · intro hlast
    exact Except.ok.inj (hcstr.symm.trans hlast.hostnqn)
  · intro hover
    refine ⟨hread.settings, ?_⟩
    rw [hcstr, hover]
    rfl

/-- The host name that the base section of a file leaves, if it is accepted. -/
def hostnqnRead (file : Bytes) : Option (ℤ × Option Bytes) :=
  (snsdGetSectionInfo acceptAll file SNSD_SECTION_BASE_NAME (startCfg clearState)).toOption.map
    fun r => (r.2, (r.1.snsdHostnqn.cstr 0).toOption)

theorem hostnqnRead_some {file text : Bytes} (h : hostnqnRead file = some (0, some text)) :
    ∃ s', snsdGetSectionInfo acceptAll file SNSD_SECTION_BASE_NAME (startCfg clearState) =
      .ok (s', 0) ∧ s'.snsdHostnqn.cstr 0 = .ok text := by
  obtain ⟨⟨s', ret⟩, hread, hpair⟩ := Option.map_eq_some_iff.mp h
  obtain ⟨rfl, hcstr⟩ := Prod.mk.inj hpair
  exact ⟨s', ok_of_toOption hread, ok_of_toOption hcstr⟩

/-- A longer name replaces a shorter one. -/
def longerFile : Bytes := ascii "[BASE]\nhostnqn=a\n--hostnqn=bc\n"

theorem base_last_line_longer : ∃ s',
    snsdGetSectionInfo acceptAll longerFile SNSD_SECTION_BASE_NAME (startCfg clearState) =
        .ok (s', 0) ∧
      (BaseLast (sectionLines SNSD_SECTION_BASE_NAME longerFile) s' ↔
        ∀ v ∈ statedValues baseHostnqn (sectionLines SNSD_SECTION_BASE_NAME longerFile), v.length ≤
          ((lastLine baseHostnqn (sectionLines SNSD_SECTION_BASE_NAME longerFile)).getD []).length) := by
  have hread : hostnqnRead longerFile = some (0, some (ascii "bc")) := by
    decide +kernel
  obtain ⟨s', hs', -⟩ := hostnqnRead_some hread
  exact ⟨s', hs', base_last_line_iff hs'⟩

/-- The end of a longer name stays behind a shorter one. -/
def shorterFile : Bytes := ascii "[BASE]\nhostnqn=abc\nhostnqn=x\n"

theorem shorter_name_mixed : ∃ s',
    snsdGetSectionInfo acceptAll shorterFile SNSD_SECTION_BASE_NAME (startCfg clearState) =
        .ok (s', 0) ∧
      lastLine baseHostnqn (sectionLines SNSD_SECTION_BASE_NAME shorterFile) = some (ascii "x") ∧
      s'.snsdHostnqn.cstr 0 = .ok (ascii "xbc") ∧
      ¬ BaseLast (sectionLines SNSD_SECTION_BASE_NAME shorterFile) s' := by
  have hread : hostnqnRead shorterFile = some (0, some (ascii "xbc")) := by
    decide +kernel
  have hlast : lastLine baseHostnqn (sectionLines SNSD_SECTION_BASE_NAME shorterFile) =
      some (ascii "x") := by
    decide +kernel
  obtain ⟨s', hs', hcstr⟩ := hostnqnRead_some hread
  refine ⟨s', hs', hlast, hcstr, ?_⟩
  intro hbase
  have hx := hbase.hostnqn
  rw [hlast, hcstr] at hx
  exact absurd (Except.ok.inj hx) (by decide)

end NvmeSnsd.Cfg
