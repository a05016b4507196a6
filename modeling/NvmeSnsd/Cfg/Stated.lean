import NvmeSnsd.Cfg.Conflict
import NvmeSnsd.Cfg.RoundTrip

/-! What the entries of an accepted file have from their lines. -/
namespace NvmeSnsd.Cfg
open Lib

/-- The value that an item has for an option. -/
def valueFor (c : Commandline) (part : Bytes) : Option Bytes :=
  (itemOf part).bind fun i => if c.named i.1 then some i.2 else none

/-- The value that the last item for an option has. -/
def lastStated (c : Commandline) (parts : List Bytes) : Option Bytes :=
  parts.reverse.findSome? (valueFor c)

/-- What a line says of an option. -/
def stated (c : Commandline) (line : Bytes) : Option Bytes :=
  lastStated c ((lineText line).splitOn 124)

/-- The field of an option is what a text says, and as before without one. -/
def Takes (c : Commandline) (before after : CfgFields) (value : Option Bytes) : Prop :=
  match c.field with
  | .str f => (after.str f).text = value.getD (before.str f).text
  | .int f _ => after.int f = value.elim (before.int f) atoi

/-- What `snsd_check_and_save` writes. -/
def storeValue (c : Commandline) (value : Bytes) (e : CfgFields) : CfgFields :=
  match c.field with
  | .str f => e.setStr f (CStr.clip f.size_pos value)
  | .int f _ => e.setInt f (atoi value)

/-- What a check that takes a value leaves of the host name. -/
def hostnqnAfter (check : CheckValidity) (value : Bytes) (hostnqn : Mem SNSD_NQN_MAX_LEN) :
    Mem SNSD_NQN_MAX_LEN :=
  if check = .baseHostnqn then hostnqn.write 0 value else hostnqn

section Items
variable {o : Outside} {s s' : CfgState} {name value : Bytes}

theorem checkValidity_some {check : CheckValidity} {drvOption v : Bytes}
    (h : checkValidity o s check drvOption value = .ok (some (s', v))) :
    s' = { s with snsdHostnqn := hostnqnAfter check value s.snsdHostnqn } ∧
      (check = .baseHostnqn → value.length < SNSD_NQN_MAX_LEN) ∧
      (check ≠ .protocol → v = value) := by
  -- the checks that leave the state and the value
  have hsame (hne : check ≠ .baseHostnqn) (hsome : some (s, value) = some (s', v)) :
      s' = { s with snsdHostnqn := hostnqnAfter check value s.snsdHostnqn } ∧
        (check = .baseHostnqn → value.length < SNSD_NQN_MAX_LEN) ∧
        (check ≠ .protocol → v = value) := by
    obtain ⟨rfl, rfl⟩ := Prod.mk.inj (Option.some.inj hsome)
    rw [hostnqnAfter, if_neg hne]
    exact ⟨rfl, fun h => absurd h hne, fun _ => rfl⟩
  have hif {c : Prop} [Decidable c] (hc : (if c then some (s, value) else none) = some (s', v)) :
      some (s, value) = some (s', v) := by
    by_cases hcond : c
    · rwa [if_pos hcond] at hc
    · rw [if_neg hcond] at hc
      cases hc
  cases check with
  | none => exact hsame (by decide) (Except.ok.inj h)
  | unsupport => cases Except.ok.inj h
  | ip => exact hsame (by decide) (hif (Except.ok.inj h))
  | para => exact hsame (by decide) (hif (Except.ok.inj h))
  | noarg => exact hsame (by decide) (hif (Except.ok.inj h))
  | hostnqn =>
    have hval := Except.ok.inj h
    split at hval
    · cases hval
    · exact hsame (by decide) hval
  | baseHostnqn =>
    rw [checkValidity] at h
    split at h
    · cases Except.ok.inj h
    · next hl =>
      have hroom : 0+value.length ≤ SNSD_NQN_MAX_LEN := by omega
      obtain ⟨hostnqn, hstore, h⟩ := bind_eq_ok.mp h
      obtain ⟨rfl, rfl⟩ := Prod.mk.inj (Option.some.inj (Except.ok.inj h))
      rw [Mem.store_ok hroom] at hstore
      obtain rfl := Except.ok.inj hstore
      exact ⟨rfl, fun _ => Nat.lt_of_not_le hl, fun _ => rfl⟩
  | protocol =>
    obtain ⟨w, -, hw⟩ := Option.map_eq_some_iff.mp (Except.ok.inj h)
    obtain ⟨rfl, rfl⟩ := Prod.mk.inj hw
    exact ⟨rfl, fun h => absurd h (by decide), fun hne => absurd rfl hne⟩

/-- An item that is saved: the option that is found, and what goes into the record. -/
theorem saveOneItem_saved {sectionName : Bytes} {r : Record} {table : List Commandline}
    (ht : sectionTable sectionName = (r, table))
    (h : snsdSaveOneItem o sectionName name value s = .ok (s', 0)) :
    ∃ c v, table.find? (·.named name) = some c ∧
      (c.checkValidity = .baseHostnqn → value.length < SNSD_NQN_MAX_LEN) ∧
      (c.checkValidity ≠ .protocol → v = value) ∧
      (∀ f, c.field = .str f → v.length < f.size) ∧
      s' = { s with snsdHostnqn := hostnqnAfter c.checkValidity value s.snsdHostnqn }.setRecord r
        (storeValue c v (s.record r)) := by
  rw [snsdSaveOneItem, ht] at h
  dsimp only at h
  cases hc : table.find? (·.named name) with
  | none =>
    rw [hc] at h
    cases (Prod.mk.inj (Except.ok.inj h)).2
  | some c =>
    rw [hc] at h
    obtain ⟨checked, hcheck, h⟩ := bind_eq_ok.mp h
    cases checked with
    | none => cases (Prod.mk.inj (Except.ok.inj h)).2
    | some p =>
      obtain ⟨s₁, v⟩ := p
      obtain ⟨rfl, hlen, hv⟩ := checkValidity_some hcheck
      refine ⟨c, v, rfl, hlen, hv, ?_⟩
      have hrec : ({ s with snsdHostnqn := hostnqnAfter c.checkValidity value s.snsdHostnqn }).record r =
          s.record r := by
        cases r <;> rfl
      rw [storeValue]
      dsimp only at h
      cases hf : c.field with
      | int f d =>
        rw [hf] at h
        dsimp only at h
        rw [hrec] at h
        refine ⟨fun g hg => ?_, (Prod.mk.inj (Except.ok.inj h)).1.symm⟩
        cases hg
      | str f =>
        rw [hf] at h
        dsimp only at h
        split at h
        · cases (Prod.mk.inj (Except.ok.inj h)).2
        · next hl =>
          rw [hrec] at h
          refine ⟨fun g hg => ?_, (Prod.mk.inj (Except.ok.inj h)).1.symm⟩
          cases hg
          exact Nat.lt_of_not_le hl

/-- What the parser relies on in the table of a section: two options have no field in
common. -/
structure TableFor (sectionName : Bytes) (r : Record) (table : List Commandline) : Prop
    extends TableOk table where
  found : sectionTable sectionName = (r, table)
  fields : ∀ c ∈ table, ∀ d ∈ table,
    c.field.strField = d.field.strField → c.field.intField = d.field.intField → c = d

theorem tableFor_mode (mode : SnsdMode) : TableFor mode.sectionName .cfg commandLineOptions :=
  ⟨commandLineOptions_ok, sectionTable_mode mode, by decide +kernel⟩

theorem tableFor_base : TableFor SNSD_SECTION_BASE_NAME .base baseCommandLineOptions :=
  ⟨baseCommandLineOptions_ok, sectionTable_base, by decide +kernel⟩

section Table
variable {sectionName : Bytes} {r : Record} {table : List Commandline} {c d : Commandline}

theorem storeValue_other (htable : TableFor sectionName r table) (hc : c ∈ table) (hd : d ∈ table)
    (hne : c ≠ d) (e : CfgFields) (v : Bytes) : Takes c e (storeValue d v e) none := by
  have hfields := htable.fields c hc d hd
  rw [Takes, storeValue]
  cases hf : c.field with
  | str f =>
    cases hg : d.field with
    | int g _ => rfl
    | str g =>
      have hfg : f ≠ g := by
        rintro rfl
        exact hne (hfields (by rw [hf, hg]) (by rw [hf, hg]))
      exact congrArg CStr.text (Function.update_of_ne hfg _ _)
  | int f _ =>
    cases hg : d.field with
    | str g => rfl
    | int g _ =>
      have hfg : f ≠ g := by
        rintro rfl
        refine hne (hfields ?_ ?_)
        · rw [hf, hg]
          rfl
        · rw [hf, hg]
          rfl
      exact Function.update_of_ne hfg _ _

theorem storeValue_self {v : Bytes} (hz : 0 ∉ v)
    (hfit : ∀ f, c.field = .str f → v.length < f.size) (e : CfgFields) :
    Takes c e (storeValue c v e) (some v) := by
  rw [Takes, storeValue]
  cases hf : c.field with
  | str f =>
    dsimp only
    rw [CfgFields.setStr_self]
    exact CStr.clip_text hz (hfit f hf)
  | int f d => exact CfgFields.setInt_self e f (atoi v)

theorem find_named (htable : TableFor sectionName r table) (hc : c ∈ table)
    (h : c.named name = true) : table.find? (·.named name) = some c := by
  rw [Commandline.named, Bool.or_eq_true, beq_iff_eq, beq_iff_eq] at h
  rcases h with rfl | rfl
  · exact htable.find c hc true
  · exact htable.find c hc false

theorem record_setRecord (s : CfgState) (hostnqn : Mem SNSD_NQN_MAX_LEN) (e : CfgFields) :
    (({ s with snsdHostnqn := hostnqn }).setRecord r e).record r = e := by
  cases r <;> rfl

/-- What saving an item does to the field of an option. -/
theorem saveOneItem_takes (htable : TableFor sectionName r table) (hc : c ∈ table)
    (hp : c.checkValidity ≠ .protocol) (hz : 0 ∉ value)
    (h : snsdSaveOneItem o sectionName name value s = .ok (s', 0)) :
    Takes c (s.record r) (s'.record r) (if c.named name then some value else none) := by
  obtain ⟨d, v, hfind, -, hv, hfit, rfl⟩ := saveOneItem_saved htable.found h
  rw [record_setRecord]
  by_cases hnamed : c.named name = true
  · obtain rfl := Option.some.inj ((find_named htable hc hnamed).symm.trans hfind)
    obtain rfl := hv hp
    rw [if_pos hnamed]
    exact storeValue_self hz hfit (s.record r)
  · have hne : c ≠ d := by
      rintro rfl
      exact hnamed (List.find?_some (p := fun d : Commandline => d.named name) hfind)
    rw [if_neg hnamed]
    exact storeValue_other htable hc (List.mem_of_find?_eq_some hfind) hne (s.record r) v

end Table

theorem wordOf_noNul {text w rest : Bytes} (h : wordOf text = some (w, rest)) : 0 ∉ w := by
  rw [wordOf] at h
  split at h
  · cases h
  · obtain ⟨rfl, -⟩ := Prod.mk.inj (Option.some.inj h)
    intro h0
    exact absurd (List.mem_takeWhile_imp h0) (by decide)

theorem itemOf_noNul {part : Bytes} (h : itemOf part = some (name, value)) : 0 ∉ value := by
  obtain ⟨⟨w, r⟩, -, h⟩ := Option.bind_eq_some_iff.mp h
  dsimp only at h
  split at h
  · obtain ⟨⟨v, rest⟩, hword, hpair⟩ := Option.map_eq_some_iff.mp h
    obtain ⟨-, rfl⟩ := Prod.mk.inj hpair
    exact wordOf_noNul hword
  · cases h

theorem runItem_saved {sectionName part : Bytes} (h : runItem o sectionName part s = .ok (s', 0)) :
    ∃ name value, itemOf part = some (name, value) ∧
      snsdSaveOneItem o sectionName name value s = .ok (s', 0) := by
  rw [runItem] at h
  cases hitem : itemOf part with
  | none =>
    rw [hitem] at h
    cases (Prod.mk.inj (Except.ok.inj h)).2
  | some i =>
    rw [hitem] at h
    obtain ⟨⟨t, ret⟩, hsave, h⟩ := bind_eq_ok.mp h
    obtain ⟨rfl, hret⟩ := Prod.mk.inj (Except.ok.inj h)
    have hzero : ret = 0 := by
      by_contra hne
      rw [if_pos hne] at hret
      exact absurd hret (by decide)
    rw [hzero] at hsave
    exact ⟨i.1, i.2, rfl, hsave⟩

/-- A value that is said later counts. -/
theorem Takes.trans {c : Commandline} {a b e : CfgFields} {x y : Option Bytes}
    (h : Takes c a b x) (h' : Takes c b e y) : Takes c a e (y.or x) := by
  rw [Takes] at *
  cases hf : c.field with
  | str f =>
    rw [hf] at h h'
    dsimp only at *
    cases y with
    | none => exact h'.trans h
    | some t => exact h'
  | int f _ =>
    rw [hf] at h h'
    dsimp only at *
    cases y with
    | none => exact h'.trans h
    | some t => exact h'

/-- Items that are saved: the first of them, and the rest. -/
theorem runParts_cons {sectionName part : Bytes} {parts : List Bytes}
    (h : runParts o sectionName (part :: parts) s = .ok (s', 0)) :
    ∃ t name value, itemOf part = some (name, value) ∧
      snsdSaveOneItem o sectionName name value s = .ok (t, 0) ∧
      runParts o sectionName parts t = .ok (s', 0) := by
  rw [runParts] at h
  split at h
  · cases (Prod.mk.inj (Except.ok.inj h)).2
  · obtain ⟨⟨t, ret⟩, hitem, h⟩ := bind_eq_ok.mp h
    dsimp only at h
    by_cases hret : ret ≠ 0
    · rw [if_pos hret] at h
      exact absurd (Prod.mk.inj (Except.ok.inj h)).2 hret
    · rw [if_neg hret] at h
      rw [not_not.mp hret] at hitem
      obtain ⟨name, value, hof, hsave⟩ := runItem_saved hitem
      exact ⟨t, name, value, hof, hsave, h⟩

theorem runParts_takes {sectionName : Bytes} {r : Record} {table : List Commandline}
    {c : Commandline} (htable : TableFor sectionName r table) (hc : c ∈ table)
    (hp : c.checkValidity ≠ .protocol) (parts : List Bytes)
    (h : runParts o sectionName parts s = .ok (s', 0)) :
    Takes c (s.record r) (s'.record r) (lastStated c parts) := by
  induction parts generalizing s with
  | nil =>
    obtain ⟨rfl, -⟩ := Prod.mk.inj (Except.ok.inj h)
    rw [Takes]
    cases c.field <;> rfl
  | cons part parts ih =>
    obtain ⟨t, name, value, hof, hsave, h⟩ := runParts_cons h
    have hone := saveOneItem_takes htable hc hp (itemOf_noNul hof) hsave
    have hvalue : valueFor c part = if c.named name then some value else none := by
      rw [valueFor, hof]
      rfl
    rw [← hvalue] at hone
    have hlast : lastStated c (part :: parts) = (lastStated c parts).or (valueFor c part) := by
      rw [lastStated, List.reverse_cons, List.findSome?_append, List.findSome?_singleton,
        lastStated]
    rw [hlast]
    exact hone.trans (ih h)

theorem saveOneItem_lists {sectionName : Bytes} {ret : ℤ}
    (h : snsdSaveOneItem o sectionName name value s = .ok (s', ret)) (m : SnsdMode) :
    s'.infoList m = s.infoList m := by
  rw [snsdSaveOneItem] at h
  dsimp only at h
  split at h
  · obtain ⟨checked, hcheck, h⟩ := bind_eq_ok.mp h
    cases checked with
    | none =>
      obtain ⟨rfl, -⟩ := Prod.mk.inj (Except.ok.inj h)
      rfl
    | some p =>
      obtain ⟨s₁, v⟩ := p
      obtain ⟨rfl, -, -⟩ := checkValidity_some hcheck
      have hset (hostnqn : Mem SNSD_NQN_MAX_LEN) (r : Record) (e : CfgFields) :
          ({ s with snsdHostnqn := hostnqn }.setRecord r e).infoList m = s.infoList m := by
        cases r <;> cases m <;> rfl
      dsimp only at h
      split at h
      · split at h
        · obtain ⟨rfl, -⟩ := Prod.mk.inj (Except.ok.inj h)
          cases m <;> rfl
        · obtain ⟨rfl, -⟩ := Prod.mk.inj (Except.ok.inj h)
          exact hset _ _ _
      · obtain ⟨rfl, -⟩ := Prod.mk.inj (Except.ok.inj h)
        exact hset _ _ _
  · obtain ⟨rfl, -⟩ := Prod.mk.inj (Except.ok.inj h)
    rfl

theorem runParts_lists {sectionName : Bytes} (parts : List Bytes) {ret : ℤ}
    (h : runParts o sectionName parts s = .ok (s', ret)) (m : SnsdMode) :
    s'.infoList m = s.infoList m := by
  induction parts generalizing s with
  | nil =>
    obtain ⟨rfl, -⟩ := Prod.mk.inj (Except.ok.inj h)
    rfl
  | cons part parts ih =>
    rw [runParts] at h
    split at h
    · obtain ⟨rfl, -⟩ := Prod.mk.inj (Except.ok.inj h)
      rfl
    · obtain ⟨⟨t, r⟩, hitem, h⟩ := bind_eq_ok.mp h
      have hone : t.infoList m = s.infoList m := by
        rw [runItem] at hitem
        split at hitem
        · obtain ⟨rfl, -⟩ := Prod.mk.inj (Except.ok.inj hitem)
          rfl
        · obtain ⟨⟨t', r'⟩, hsave, hitem⟩ := bind_eq_ok.mp hitem
          obtain ⟨rfl, -⟩ := Prod.mk.inj (Except.ok.inj hitem)
          exact saveOneItem_lists hsave m
      dsimp only at h
      split at h
      · obtain ⟨rfl, -⟩ := Prod.mk.inj (Except.ok.inj h)
        exact hone
      · exact (ih h).trans hone

end Items

/-! Lines and sections. -/

/-- An entry of a mode that has every option from its line, or its default. -/
def FromLine (mode : SnsdMode) (line : Bytes) (e : CfgInfos) : Prop :=
  e.mode = mode ∧ ∀ c ∈ commandLineOptions, c.checkValidity ≠ .protocol →
    Takes c (snsdInitCfgWithDefault commandLineOptions) e.toCfgFields (stated c line)

section Lines
variable {o : Outside} {s s' : CfgState}

theorem runLine_parts {sectionName line : Bytes} (h : runLine o sectionName line s = .ok (s', 0)) :
    ∃ t, runParts o sectionName ((lineText line).splitOn 124) (snsdInitCfg s) = .ok (t, 0) ∧
      snsdAddOneCfg sectionName t = (s', 0) := by
  rw [runLine] at h
  obtain ⟨⟨t, ret⟩, hparts, h⟩ := bind_eq_ok.mp h
  dsimp only at h
  by_cases hret : ret ≠ 0
  · rw [if_pos hret] at h
    cases (Prod.mk.inj (Except.ok.inj h)).2
  · rw [if_neg hret] at h
    refine ⟨t, not_not.mp hret ▸ hparts, ?_⟩
    by_cases hadd : (snsdAddOneCfg sectionName t).2 ≠ 0
    · rw [if_pos hadd] at h
      cases (Prod.mk.inj (Except.ok.inj h)).2
    · rw [if_neg hadd] at h
      exact Prod.ext (Prod.mk.inj (Except.ok.inj h)).1 (not_not.mp hadd)

theorem runLine_adds {mode : SnsdMode} {line : Bytes}
    (h : runLine o mode.sectionName line s = .ok (s', 0)) :
    ∃ e, FromLine mode line e ∧ s'.infoList mode = s.infoList mode ++ [e] ∧
      ∀ m, m ≠ mode → s'.infoList m = s.infoList m := by
  obtain ⟨t, hparts, hadd⟩ := runLine_parts h
  have hneed : snsdCheckNecessary mode.sectionName t = true := by
    by_contra hno
    rw [snsdAddOneCfg, if_pos (by simp [hno])] at hadd
    cases (Prod.mk.inj hadd).2
  obtain ⟨s₁, hadd₁, -, hin, hother⟩ := addOneCfg_mode mode hneed
  obtain rfl : s₁ = s' := (Prod.mk.inj (hadd₁.symm.trans hadd)).1
  have hlists (m : SnsdMode) : t.infoList m = s.infoList m := by
    rw [runParts_lists _ hparts m]
    cases m <;> rfl
  refine ⟨⟨t.cfg, mode⟩, ⟨rfl, fun c hc hp => ?_⟩, ?_, fun m hm => ?_⟩
  · exact runParts_takes (tableFor_mode mode) hc hp _ hparts
  · rw [hin, hlists]
  · rw [hother m hm, hlists]

theorem runLine_base {line : Bytes} (h : runLine o SNSD_SECTION_BASE_NAME line s = .ok (s', 0))
    (m : SnsdMode) : s'.infoList m = s.infoList m := by
  obtain ⟨t, hparts, hadd⟩ := runLine_parts h
  rw [addOneCfg_base] at hadd
  obtain rfl := (Prod.mk.inj hadd).1
  rw [runParts_lists _ hparts m]
  cases m <;> rfl

/-- The lines that are run before the rest. -/
theorem runLines_cons {sectionName line : Bytes} {lines : List Bytes}
    (h : runLines o sectionName (line :: lines) s = .ok (s', 0)) :
    ∃ t, runLine o sectionName line s = .ok (t, 0) ∧ runLines o sectionName lines t = .ok (s', 0) := by
  rw [runLines] at h
  split at h
  · cases h
  · obtain ⟨⟨t, ret⟩, hline, h⟩ := bind_eq_ok.mp h
    dsimp only at h
    by_cases hret : ret ≠ 0
    · rw [if_pos hret] at h
      cases (Prod.mk.inj (Except.ok.inj h)).2
    · rw [if_neg hret] at h
      exact ⟨t, not_not.mp hret ▸ hline, h⟩

theorem runLines_adds {mode : SnsdMode} (lines : List Bytes)
    (h : runLines o mode.sectionName lines s = .ok (s', 0)) :
    ∃ es, List.Forall₂ (FromLine mode) lines es ∧ s'.infoList mode = s.infoList mode ++ es ∧
      ∀ m, m ≠ mode → s'.infoList m = s.infoList m := by
  induction lines generalizing s with
  | nil =>
    obtain ⟨rfl, -⟩ := Prod.mk.inj (Except.ok.inj h)
    exact ⟨[], .nil, (List.append_nil _).symm, fun _ _ => rfl⟩
  | cons line lines ih =>
    obtain ⟨t, hline, hrest⟩ := runLines_cons h
    obtain ⟨e, he, hin, hother⟩ := runLine_adds hline
    obtain ⟨es, hes, hin', hother'⟩ := ih hrest
    refine ⟨e :: es, .cons he hes, ?_, fun m hm => (hother' m hm).trans (hother m hm)⟩
    rw [hin', hin, List.append_assoc]
    rfl

theorem runLines_base_lists (lines : List Bytes)
    (h : runLines o SNSD_SECTION_BASE_NAME lines s = .ok (s', 0)) (m : SnsdMode) :
    s'.infoList m = s.infoList m := by
  induction lines generalizing s with
  | nil =>
    obtain ⟨rfl, -⟩ := Prod.mk.inj (Except.ok.inj h)
    rfl
  | cons line lines ih =>
    obtain ⟨t, hline, hrest⟩ := runLines_cons h
    exact (ih hrest).trans (runLine_base hline m)

/-- The lines with items in a section of the file. -/
def sectionLines (name file : Bytes) : List Bytes :=
  ((sectionText name file).map fun t => itemLines (blankFree t)).getD []

theorem getSectionInfo_lines {file name : Bytes}
    (h : snsdGetSectionInfo o file name s = .ok (s', 0)) :
    runLines o name (sectionLines name file) s = .ok (s', 0) := by
  have hl : file.length < SNSD_CFG_FILE_MAX_SIZE := by
    by_contra hl
    rw [snsdGetSectionInfo, snsdSectionLoad, if_pos (Nat.le_of_not_lt hl)] at h
    cases (Prod.mk.inj (Except.ok.inj h)).2
  rw [getSectionInfo_eq o name s hl] at h
  rw [sectionLines]
  cases ht : sectionText name file with
  | none =>
    rw [ht] at h
    cases (Prod.mk.inj (Except.ok.inj h)).2
  | some t =>
    rw [ht] at h
    exact h

theorem hostnqnInit_lists {f : HostnqnFile} {ret : ℤ} (h : snsdHostnqnInit f s = .ok (s', ret))
    (m : SnsdMode) : s'.infoList m = s.infoList m := by
  rw [snsdHostnqnInit] at h
  split at h
  · obtain ⟨rfl, -⟩ := Prod.mk.inj (Except.ok.inj h)
    rfl
  · obtain ⟨name, -, h⟩ := bind_eq_ok.mp h
    split at h
    · split at h
      · obtain ⟨rfl, -⟩ := Prod.mk.inj (Except.ok.inj h)
        rfl
      · obtain ⟨hostnqn, -, h⟩ := bind_eq_ok.mp h
        obtain ⟨rfl, -⟩ := Prod.mk.inj (Except.ok.inj h)
        cases m <;> rfl
    · obtain ⟨rfl, -⟩ := Prod.mk.inj (Except.ok.inj h)
      rfl

/-- The entries of an accepted file are those of its lines, in their order. -/
theorem cfgInit_entries {f : HostnqnFile} {head : CfgState → SnsdMode → Bytes} {file : Bytes}
    (h : snsdCfgInit o f head file s = .ok (s', 0)) (mode : SnsdMode) :
    List.Forall₂ (FromLine mode) (sectionLines mode.sectionName file) (s'.infoList mode) := by
  rw [snsdCfgInit] at h
  -- none of the calls failed
  obtain ⟨⟨s₁, r₁⟩, hbase, h⟩ := bind_eq_ok.mp h
  obtain ⟨hr₁, h⟩ := check_passed h
  obtain rfl := not_not.mp hr₁
  obtain ⟨⟨s₂, r₂⟩, hsw, h⟩ := bind_eq_ok.mp h
  obtain ⟨hr₂, h⟩ := check_passed h
  obtain rfl := not_not.mp hr₂
  obtain ⟨⟨s₃, r₃⟩, hdc, h⟩ := bind_eq_ok.mp h
  obtain ⟨hr₃, h⟩ := check_passed h
  obtain rfl := not_not.mp hr₃
  obtain ⟨⟨s₄, r₄⟩, hname, h⟩ := bind_eq_ok.mp h
  obtain rfl : s₄ = s' := (Prod.mk.inj (Except.ok.inj (check_passed (check_passed h).2).2)).1
  have hstart (m : SnsdMode) : s₁.infoList m = [] := by
    rw [runLines_base_lists _ (getSectionInfo_lines hbase) m]
    cases m <;> rfl
  obtain ⟨sws, hsws, hin, hother⟩ :=
    runLines_adds (sectionLines SnsdMode.sw.sectionName file) (getSectionInfo_lines hsw)
  obtain ⟨dcs, hdcs, hin', hother'⟩ :=
    runLines_adds (sectionLines SnsdMode.dc.sectionName file) (getSectionInfo_lines hdc)
  rw [hostnqnInit_lists hname mode]
  cases mode with
  | sw =>
    rw [hother' .sw (by decide), hin, hstart, List.nil_append]
    exact hsws
  | dc =>
    rw [hin', hother .dc (by decide), hstart, List.nil_append]
    exact hdcs

end Lines

end NvmeSnsd.Cfg
