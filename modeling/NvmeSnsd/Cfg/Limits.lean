import NvmeSnsd.Cfg.Stated

/-! The limits that a value meets on its way: the line, the item and the field. -/
namespace NvmeSnsd.Cfg
open Lib

/-! The sections: the base values (`none`), and the entries of a mode. -/

def sectionOf : Option SnsdMode → Bytes
  | none => SNSD_SECTION_BASE_NAME
  | some mode => mode.sectionName

def tableOf : Option SnsdMode → List Commandline
  | none => baseCommandLineOptions
  | some _ => commandLineOptions

def mandatoryIn : Option SnsdMode → Commandline → Bool
  | none, _ => false
  | some mode, c => c.necessary mode.sectionName == .must

/-- An item that its own check takes and that has room in its field. -/
structure Fitting (o : Outside) (table : List Commandline) (i : Item) : Prop where
  known : i.option ∈ table
  accepted : Accepts o i.option i.value.text = true
  fits : ∀ f, i.option.field = .str f → i.value.text.length < f.size

/-- A line of one item and of the mandatory ones beside it, in any order. -/
structure Beside (o : Outside) (place : Option SnsdMode) (i : Item) (l : Line) : Prop where
  item : i ∈ l.items
  fitting : ∀ j ∈ l.items, Fitting o (tableOf place) j
  distinct : (l.items.map Item.option).Nodup
  options : ∀ c, c ∈ l.items.map Item.option ↔
    c = i.option ∨ (c ∈ tableOf place ∧ mandatoryIn place c = true)

/-- The field of the record that the line has made or set. -/
def Stores (place : Option SnsdMode) (s s' : CfgState) (f : StrField) (value : Bytes) : Prop :=
  match place with
  | none => (s'.baseCfg.str f).text = value
  | some mode => ∃ e : CfgFields, s'.infoList mode = s.infoList mode ++ [⟨e, mode⟩] ∧
      (e.str f).text = value

/-! The record that a line states. -/

def statedNumber (c : Commandline) (value : Bytes) : Int32 :=
  if c.checkValidity = .protocol then Int32.ofNat ((protMatch.lookup value).getD 0) else atoi value

def stateItem (e : CfgFields) (i : Item) : CfgFields :=
  match i.option.field with
  | .str f => e.setStr f (CStr.clip f.size_pos i.value.text)
  | .int f _ => e.setInt f (statedNumber i.option i.value.text)

section State
variable {o : Outside} {name : Bytes} {r : Record} {table : List Commandline} {i j : Item}
  {e : CfgFields}

theorem Word.noNul (w : Word) : 0 ∉ w.text := by
  intro h
  exact absurd (w.word 0 h) (by decide)

theorem denotes_stateItem (h : Fitting o table i) :
    Denotes i.option i.value.text (stateItem e i) := by
  rw [Denotes, stateItem]
  cases hf : i.option.field with
  | str f =>
    dsimp only
    rw [CfgFields.setStr_self]
    exact (CStr.clip_text i.value.noNul (h.fits f hf)).symm
  | int f d =>
    dsimp only
    rw [CfgFields.setInt_self, statedNumber]
    by_cases hp : i.option.checkValidity = .protocol
    · have hacc := h.accepted
      rw [Accepts, hp] at hacc
      obtain ⟨n, hn⟩ := Option.isSome_iff_exists.mp hacc
      rw [if_pos hp, if_pos hp, hn]
      rfl
    · rw [if_neg hp, if_neg hp]

/-- An item of another option leaves what is denoted. -/
theorem denotes_stateItem_other (htable : TableFor name r table) (hi : i.option ∈ table)
    (hj : j.option ∈ table) (hne : i.option ≠ j.option)
    (h : Denotes i.option i.value.text e) : Denotes i.option i.value.text (stateItem e j) := by
  have hfields := htable.fields _ hi _ hj
  rw [Denotes] at *
  rw [stateItem]
  cases hf : i.option.field with
  | str f =>
    rw [hf] at h
    cases hg : j.option.field with
    | int g _ => exact h
    | str g =>
      have hfg : f ≠ g := by
        rintro rfl
        exact hne (hfields (by rw [hf, hg]) (by rw [hf, hg]))
      exact h.trans (congrArg CStr.text (Function.update_of_ne hfg _ _)).symm
  | int f _ =>
    rw [hf] at h
    cases hg : j.option.field with
    | str g => exact h
    | int g _ =>
      have hfg : f ≠ g := by
        rintro rfl
        exact hne (hfields (by rw [hf, hg]; rfl) (by rw [hf, hg]; rfl))
      have hsame : (e.setInt g (statedNumber j.option j.value.text)).int f = e.int f :=
        Function.update_of_ne hfg _ _
      dsimp only at h ⊢
      rw [hsame]
      exact h

/-- Once all items are in, each is denoted. -/
theorem foldl_denotes (htable : TableFor name r table) (items : List Item)
    (hfit : ∀ i ∈ items, Fitting o table i) (hnodup : (items.map Item.option).Nodup)
    (hi : i.option ∈ table) (h : i ∈ items ∨
      (i.option ∉ items.map Item.option ∧ Denotes i.option i.value.text e)) :
    Denotes i.option i.value.text (items.foldl stateItem e) := by
  induction items generalizing e with
  | nil => exact (h.resolve_left List.not_mem_nil).2
  | cons j items ih =>
    rw [List.map_cons, List.nodup_cons] at hnodup
    have hj := hfit j List.mem_cons_self
    apply ih (fun k hk => hfit k (List.mem_cons_of_mem _ hk)) hnodup.2
    rcases h with h | ⟨hnot, hden⟩
    · rcases List.mem_cons.mp h with rfl | h
      · exact Or.inr ⟨hnodup.1, denotes_stateItem hj⟩
      · exact Or.inl h
    · rw [List.map_cons, List.mem_cons, not_or] at hnot
      exact Or.inr ⟨hnot.2, denotes_stateItem_other htable hi hj.known hnot.1 hden⟩

theorem stateItem_agree (items : List Item) : AgreeElse items (items.foldl stateItem e) e := by
  induction items generalizing e with
  | nil => exact ⟨fun _ _ => rfl, fun _ _ => rfl⟩
  | cons j items ih =>
    have hrest := ih (e := stateItem e j)
    refine ⟨fun f hf => ?_, fun f hf => ?_⟩
    · have hj := hf j List.mem_cons_self
      refine (hrest.str f fun k hk => hf k (List.mem_cons_of_mem _ hk)).trans ?_
      rw [stateItem]
      cases hg : j.option.field with
      | int g d => rfl
      | str g =>
        have hfg : f ≠ g := by
          rintro rfl
          exact hj (by rw [hg]; rfl)
        exact Function.update_of_ne hfg _ _
    · have hj := hf j List.mem_cons_self
      refine (hrest.int f fun k hk => hf k (List.mem_cons_of_mem _ hk)).trans ?_
      rw [stateItem]
      cases hg : j.option.field with
      | str g => rfl
      | int g d =>
        have hfg : f ≠ g := by
          rintro rfl
          exact hj (by rw [hg]; rfl)
        exact Function.update_of_ne hfg _ _

end State

/-! The line. -/

theorem tableFor_place (place : Option SnsdMode) :
    ∃ r, TableFor (sectionOf place) r (tableOf place) := by
  cases place with
  | none => exact ⟨.base, tableFor_base⟩
  | some mode => exact ⟨.cfg, tableFor_mode mode⟩

theorem intercalate_length_le {k : ℕ} (parts : List Bytes) (h : ∀ p ∈ parts, p.length ≤ k) :
    ([124].intercalate parts : Bytes).length ≤ (k+1)*parts.length := by
  induction parts with
  | nil => exact Nat.zero_le _
  | cons p parts ih =>
    have hp := h p List.mem_cons_self
    have hrest := ih fun q hq => h q (List.mem_cons_of_mem _ hq)
    cases parts with
    | nil =>
      rw [List.intercalate_singleton, List.length_singleton]
      omega
    | cons q parts =>
      rw [List.intercalate_cons_cons, List.length_append, List.length_append, List.length_singleton,
        List.length_cons, Nat.mul_succ]
      omega

/-- A short name, and a short field or a protocol. -/
def isSmall (c : Commandline) : Bool :=
  c.option.length ≤ 12 && match c.field with
    | .str f => f.size ≤ 65
    | .int _ _ => c.checkValidity == .protocol

theorem mandatory_small (place : Option SnsdMode) :
    ∀ c ∈ tableOf place, mandatoryIn place c = true → isSmall c = true := by
  cases place with
  | none => exact fun c _ h => absurd h Bool.false_ne_true
  | some mode => cases mode <;> decide +kernel

theorem mandatory_count (place : Option SnsdMode) :
    ((tableOf place).filter (mandatoryIn place)).length ≤ 3 := by
  cases place with
  | none => decide +kernel
  | some mode => cases mode <;> decide +kernel

theorem keyText_length_le (dashes : Bool) (option : Bytes) :
    (keyText dashes option).length ≤ option.length+2 := by
  cases dashes with
  | false => exact Nat.le_add_right _ _
  | true =>
    rw [keyText, if_pos rfl, List.length_append, Nat.add_comm]
    exact le_rfl

theorem protocol_length_le {value : Bytes} (h : (protMatch.lookup value).isSome = true) :
    value.length ≤ 5 := by
  obtain ⟨n, hn⟩ := Option.isSome_iff_exists.mp h
  obtain ⟨l, more, hl, -⟩ := List.lookup_eq_some_iff.mp hn
  have hmem : (value, n) ∈ protMatch := by
    rw [hl]
    exact List.mem_append_right _ List.mem_cons_self
  simp only [protMatch, List.mem_cons, List.not_mem_nil, or_false, Prod.mk.injEq] at hmem
  rcases hmem with ⟨rfl, -⟩ | ⟨rfl, -⟩ | ⟨rfl, -⟩ <;> decide

section Line
variable {o : Outside} {place : Option SnsdMode} {i j : Item} {l : Line}

theorem Item.text_length (i : Item) : i.text.length = i.key.length+(i.value.text.length+1) := by
  rw [Item.text, List.length_append, List.length_cons]

/-- Only the item itself can be too long. -/
theorem mandatory_short (h : Fitting o (tableOf place) j)
    (hm : mandatoryIn place j.option = true) : j.text.length ≤ SNSD_CFG_NAME_MAX_LEN := by
  have hsmall := mandatory_small place _ h.known hm
  have hkey := keyText_length_le j.dashes j.option.option
  rw [isSmall, Bool.and_eq_true, decide_eq_true_eq] at hsmall
  obtain ⟨hoption, hfield⟩ := hsmall
  have hvalue : j.value.text.length ≤ 65 := by
    cases hf : j.option.field with
    | str f =>
      have hfit := h.fits f hf
      rw [hf] at hfield
      have hsize : f.size ≤ 65 := of_decide_eq_true hfield
      omega
    | int f d =>
      have hacc := h.accepted
      rw [hf] at hfield
      rw [Accepts, beq_iff_eq.mp hfield] at hacc
      have hlen := protocol_length_le hacc
      omega
  rw [Item.text_length, Item.key, SNSD_CFG_NAME_MAX_LEN]
  omega

theorem Beside.short (h : Beside o place i l) (hi : i.text.length ≤ SNSD_CFG_NAME_MAX_LEN)
    (hj : j ∈ l.items) : j.text.length ≤ SNSD_CFG_NAME_MAX_LEN := by
  rcases (h.options j.option).mp (List.mem_map_of_mem hj) with heq | ⟨-, hm⟩
  · -- an option stands once
    have hji : j = i := List.inj_on_of_nodup_map h.distinct hj h.item heq
    rwa [hji]
  · exact mandatory_short (h.fitting j hj) hm

theorem Beside.count (h : Beside o place i l) : l.items.length ≤ 4 := by
  have hsub : l.items.map Item.option ⊆
      i.option :: (tableOf place).filter (mandatoryIn place) := by
    intro c hc
    rcases (h.options c).mp hc with rfl | hm
    · exact List.mem_cons_self
    · exact List.mem_cons_of_mem _ (List.mem_filter.mpr hm)
  have hle := (List.subperm_of_subset h.distinct hsub).length_le
  have hcount := mandatory_count place
  rw [List.length_map, List.length_cons] at hle
  omega

theorem Beside.line_length (h : Beside o place i l)
    (hi : i.text.length ≤ SNSD_CFG_NAME_MAX_LEN) : l.text.length < SNSD_CFG_VALUE_MAX_LEN := by
  have hparts : ∀ p ∈ l.items.map Item.text, p.length ≤ 127 := by
    intro p hp
    obtain ⟨j, hj, rfl⟩ := List.mem_map.mp hp
    exact h.short hi hj
  have hle := intercalate_length_le _ hparts
  have hcount := h.count
  rw [List.length_map] at hle
  rw [Line.text, SNSD_CFG_VALUE_MAX_LEN]
  omega

theorem Beside.ne_nil (h : Beside o place i l) : l.items ≠ [] := List.ne_nil_of_mem h.item

theorem Beside.named (h : Beside o place i l) : ∀ j ∈ l.items, j.Named := by
  obtain ⟨r, htable⟩ := tableFor_place place
  exact fun j hj => htable.word _ (h.fitting j hj).known

/-- The record of the line, whose items all state it. -/
theorem Beside.prints (h : Beside o place i l) (hi : i.text.length ≤ SNSD_CFG_NAME_MAX_LEN) :
    Prints o (tableOf place) l.items
      (l.items.foldl stateItem (snsdInitCfgWithDefault (tableOf place))) := by
  obtain ⟨r, htable⟩ := tableFor_place place
  exact
    { known := fun j hj => (h.fitting j hj).known
      denotes := fun j hj => foldl_denotes htable l.items h.fitting h.distinct
        (h.fitting j hj).known (Or.inl hj)
      accepted := fun j hj => (h.fitting j hj).accepted
      short := fun j hj => h.short hi hj
      unmentioned := stateItem_agree l.items }

theorem sectionOf_plain (place : Option SnsdMode) : 93 ∉ sectionOf place ∧
    0 ∉ sectionOf place ∧ (sectionOf place).length < SNSD_MAX_SECTION_NAME_LEN := by
  cases place with
  | none => decide
  | some mode => cases mode <;> decide

/-- A file of the line alone. -/
def oneLine (place : Option SnsdMode) (l : Line) (indent : ℕ) : Bytes :=
  printFile [⟨indent, sectionOf place, [l]⟩]

theorem oneLine_read (h : Beside o place i l) {indent : ℕ}
    (hsize : (oneLine place l indent).length < SNSD_CFG_FILE_MAX_SIZE) (s : CfgState) :
    snsdGetSectionInfo o (oneLine place l indent) (sectionOf place) s =
      runLines o (sectionOf place) [l.text] s := by
  obtain ⟨hend, hnul, hlen⟩ := sectionOf_plain place
  have hnamed : ∀ k ∈ [l], ∀ j ∈ k.items, j.Named := by
    intro k hk
    rw [List.mem_singleton.mp hk]
    exact h.named
  have hplain : ∀ sec ∈ [(⟨indent, sectionOf place, [l]⟩ : Section)], sec.Plain := by
    intro sec hsec
    rw [List.mem_singleton.mp hsec]
    exact ⟨hend, hnul, hlen, hnamed⟩
  obtain ⟨n, hn⟩ := sectionText_printFile hplain (List.nodup_singleton _) List.mem_cons_self
  have hentry : entryLines [l] = [l] := by
    simp [entryLines, h.ne_nil]
  rw [oneLine] at hsize ⊢
  rw [getSectionInfo_eq o _ s hsize, hn]
  dsimp only
  rw [blankFree_section hnamed, itemLines_space _ (by decide), itemLines_section hnamed, hentry]
  rfl

/-- A field that an item sets, or that is there already. -/
theorem putItems_str {e c : CfgFields} {f : StrField} (items : List Item)
    (h : c.str f = e.str f ∨ ∃ i ∈ items, i.option.field.strField = some f) :
    (putItems items e c).str f = e.str f := by
  induction items generalizing c with
  | nil => exact h.resolve_right fun ⟨i, hi, _⟩ => absurd hi List.not_mem_nil
  | cons i items ih =>
    apply ih
    rw [CfgFields.put_str]
    rcases h with h | ⟨j, hj, hjf⟩
    · refine Or.inl ?_
      rw [h, ite_self]
    · rcases List.mem_cons.mp hj with rfl | hj
      · exact Or.inl (if_pos hjf)
      · exact Or.inr ⟨j, hj, hjf⟩

/-- A line whose items are short enough is read, and the field is what it says. -/
theorem Beside.stores (hinv : RejectsInvalid o) (h : Beside o place i l) {f : StrField}
    (hf : i.option.field = .str f) (hi : i.text.length ≤ SNSD_CFG_NAME_MAX_LEN) (s : CfgState) :
    ∃ s', runLines o (sectionOf place) [l.text] s = .ok (s', 0) ∧
      Stores place s s' f i.value.text := by
  have hprints := h.prints hi
  have hline := h.line_length hi
  have hden := hprints.denotes i h.item
  rw [Denotes, hf] at hden
  cases place with
  | none =>
    have hall {P : Item → Prop} (hP : ∀ j ∈ l.items, P j) : ∀ k ∈ [l], ∀ j ∈ k.items, P j := by
      intro k hk
      rw [List.mem_singleton.mp hk]
      exact hP
    obtain ⟨s', hs', hbase, -⟩ := runLines_base o _ [l] (hall hprints.known) (hall hprints.denotes)
      (hall hprints.accepted) (hall hprints.short) (List.forall_mem_singleton.mpr hline)
      (List.forall_mem_singleton.mpr h.ne_nil) s
    refine ⟨s', hs', ?_⟩
    have hmem : i ∈ [l].flatMap Line.items := by
      rw [List.flatMap_singleton]
      exact h.item
    rw [Stores, hbase, putItems_str _ (Or.inr ⟨i, hmem, by rw [hf]; rfl⟩)]
    exact hden.symm
  | some mode =>
    have hmust : ∀ c ∈ commandLineOptions, c.necessary mode.sectionName = .must →
        ∃ j ∈ l.items, j.option = c := by
      intro c hc hm
      exact List.mem_map.mp ((h.options c).mpr (Or.inr ⟨hc, beq_iff_eq.mpr hm⟩))
    obtain ⟨s', hs', -, hin, -⟩ := runLine_entry hinv ⟨hprints, hline, hmust⟩ h.ne_nil s
    refine ⟨s', ?_, ⟨_, hin, hden.symm⟩⟩
    rw [runLines, if_neg (Nat.not_le_of_lt hline)]
    exact congrArg (· >>= _) hs'

/-- No item of a line that is read is too long. -/
theorem runParts_short {name : Bytes} (parts : List Bytes) {s s' : CfgState}
    (h : runParts o name parts s = .ok (s', 0)) : ∀ p ∈ parts, p.length ≤ SNSD_CFG_NAME_MAX_LEN := by
  induction parts generalizing s with
  | nil => exact fun p hp => absurd hp List.not_mem_nil
  | cons part parts ih =>
    intro p hp
    rcases List.mem_cons.mp hp with rfl | hp
    · rw [runParts] at h
      by_contra hlong
      rw [if_pos (Nat.lt_of_not_le hlong)] at h
      exact absurd (Prod.mk.inj (Except.ok.inj h)).2 (by decide)
    · obtain ⟨t, -, -, -, -, h⟩ := runParts_cons h
      exact ih h p hp

theorem Beside.short_of_read (h : Beside o place i l) {s s' : CfgState}
    (hs : runLines o (sectionOf place) [l.text] s = .ok (s', 0)) :
    i.text.length ≤ SNSD_CFG_NAME_MAX_LEN := by
  obtain ⟨t, hline, -⟩ := runLines_cons hs
  obtain ⟨t', hparts, -⟩ := runLine_parts hline
  rw [lineText_eq h.named, splitOn_line h.named h.ne_nil] at hparts
  exact runParts_short _ hparts _ (List.mem_map_of_mem h.item)

/-- The limit of the item, and not the one of the field, decides. -/
theorem value_kept_iff (hinv : RejectsInvalid o) (h : Beside o place i l) {f : StrField}
    (hf : i.option.field = .str f) {indent : ℕ}
    (hsize : (oneLine place l indent).length < SNSD_CFG_FILE_MAX_SIZE) (s : CfgState) :
    (∃ s', snsdGetSectionInfo o (oneLine place l indent) (sectionOf place) s = .ok (s', 0) ∧
      Stores place s s' f i.value.text) ↔
    i.key.length+1+i.value.text.length ≤ SNSD_CFG_NAME_MAX_LEN := by
  have hlen : i.key.length+1+i.value.text.length = i.text.length := by
    rw [i.text_length]
    omega
  rw [oneLine_read h hsize, hlen]
  constructor
  · rintro ⟨s', hs, -⟩
    exact h.short_of_read hs
  · intro hi
    exact h.stores hinv hf hi s

end Line

/-! A host name of 118 characters, which its field of 256 has room for. -/

def longHost : Item where
  option := optionalOption "hostnqn" (.str .hostnqn) .hostnqn "hostnqn"
  dashes := true
  value :=
    { text := List.replicate 118 110
      ne := List.cons_ne_nil _ _
      word := by
        intro b hb
        rw [List.eq_of_mem_replicate hb]
        decide }
  before := 0
  beforeEq := 0
  afterEq := 0
  after := 0

def longLine : Line := ⟨0, [hostItem, protocolItem, longHost]⟩

theorem acceptAll_rejectsInvalid : RejectsInvalid acceptAll := fun _ => bne_self_eq_false' invalid

theorem longLine_beside : Beside acceptAll (some .sw) longHost longLine where
  item := by simp [longLine]
  fitting := by
    intro j hj
    simp only [longLine, List.mem_cons, List.not_mem_nil, or_false] at hj
    rcases hj with rfl | rfl | rfl
    · exact ⟨by decide +kernel, by decide +kernel, fun f hf => by cases hf; decide⟩
    · exact ⟨by decide +kernel, by decide +kernel, fun f hf => by cases hf⟩
    · exact ⟨by decide +kernel, by decide +kernel, fun f hf => by cases hf; decide⟩
  distinct := by decide +kernel
  options := by
    intro c
    have hmust : (tableOf (some .sw)).filter (mandatoryIn (some .sw)) =
        [hostItem.option, protocolItem.option] := by decide +kernel
    rw [← List.mem_filter, hmust]
    simp only [longLine, List.map_cons, List.map_nil, List.mem_cons, List.not_mem_nil, or_false]
    tauto

theorem value_kept_long :
    (∃ s', snsdGetSectionInfo acceptAll (oneLine (some .sw) longLine 0) SNSD_SECTION_SW_NAME
        clearState = .ok (s', 0) ∧
      Stores (some .sw) clearState s' .hostnqn longHost.value.text) ↔
    longHost.key.length+1+longHost.value.text.length ≤ SNSD_CFG_NAME_MAX_LEN :=
  value_kept_iff acceptAll_rejectsInvalid longLine_beside rfl (by decide +kernel) clearState

/-- It is taken by its check and has room in its field, and the line is rejected. -/
theorem long_host_rejected : Beside acceptAll (some .sw) longHost longLine ∧
    longHost.option.field = .str .hostnqn ∧
    longHost.value.text.length < StrField.hostnqn.size ∧
    ¬∃ s', snsdGetSectionInfo acceptAll (oneLine (some .sw) longLine 0) SNSD_SECTION_SW_NAME
      clearState = .ok (s', 0) := by
  refine ⟨longLine_beside, rfl, by decide, ?_⟩
  rintro ⟨s', hs⟩
  have hsize : (oneLine (some .sw) longLine 0).length < SNSD_CFG_FILE_MAX_SIZE := by
    decide +kernel
  have hread := oneLine_read longLine_beside hsize clearState
  have hshort := longLine_beside.short_of_read (hread.symm.trans hs)
  revert hshort
  decide +kernel

end NvmeSnsd.Cfg
