import NvmeSnsd.Cfg.Print

/-! Reading a configuration that was written: the records come back. -/
namespace NvmeSnsd.Cfg
open Lib

/-! What the text of an item says. -/

/-- Whether the check of an option takes the text. -/
def Accepts (o : Outside) (c : Commandline) (value : Bytes) : Bool :=
  match c.checkValidity with
  | .none => true
  | .unsupport => false
  | .ip => snsdCheckIpValidity o value
  | .para => o.paraValidityTest c.drvOption value
  | .noarg => o.noargParaValidityTest c.drvOption value
  | .hostnqn => value.length < SNSD_NQN_MAX_LEN
  | .baseHostnqn => value.length < SNSD_NQN_MAX_LEN
  | .protocol => (protMatch.lookup value).isSome

/-- The text states the value that the record `e` has for the option: a string
itself, a number in digits, a protocol by its name. -/
def Denotes (c : Commandline) (value : Bytes) (e : CfgFields) : Prop :=
  match c.field with
  | .str f => value = (e.str f).text
  | .int f _ =>
    if c.checkValidity = .protocol then (protMatch.lookup value).map Int32.ofNat = some (e.int f)
    else e.int f = atoi value

/-- A field takes the value that it has in `e`. -/
def CfgFields.put (c : CfgFields) (field : OptionField) (e : CfgFields) : CfgFields :=
  match field with
  | .str f => c.setStr f (e.str f)
  | .int f _ => c.setInt f (e.int f)

/-- The field of an option, if it is a string. -/
def OptionField.strField : OptionField → Option StrField
  | .str f => some f
  | .int _ _ => none

/-- The field of an option, if it is an `int`. -/
def OptionField.intField : OptionField → Option IntField
  | .str _ => none
  | .int f _ => some f

theorem CfgFields.put_str (c e : CfgFields) (field : OptionField) (f : StrField) :
    (c.put field e).str f = if field.strField = some f then e.str f else c.str f := by
  cases field with
  | int g d => exact (if_neg (by simp [OptionField.strField])).symm
  | str g =>
    rw [OptionField.strField]
    by_cases h : g = f
    · subst h
      rw [if_pos rfl]
      exact Function.update_self _ _ _
    · rw [if_neg (by simpa using h)]
      exact Function.update_of_ne (Ne.symm h) _ _

theorem CfgFields.put_int (c e : CfgFields) (field : OptionField) (f : IntField) :
    (c.put field e).int f = if field.intField = some f then e.int f else c.int f := by
  cases field with
  | str g => exact (if_neg (by simp [OptionField.intField])).symm
  | int g d =>
    rw [OptionField.intField]
    by_cases h : g = f
    · subst h
      rw [if_pos rfl]
      exact Function.update_self _ _ _
    · rw [if_neg (by simpa using h)]
      exact Function.update_of_ne (Ne.symm h) _ _

/-- The record with the fields of some items set. -/
def putItems (items : List Item) (e c : CfgFields) : CfgFields :=
  items.foldl (fun c i => c.put i.option.field e) c

theorem putItems_append (items more : List Item) (e c : CfgFields) :
    putItems (items ++ more) e c = putItems more e (putItems items e c) := List.foldl_append

/-- Two records that agree in every field that no item sets. -/
structure AgreeElse (items : List Item) (e c : CfgFields) : Prop where
  str : ∀ f, (∀ i ∈ items, i.option.field.strField ≠ some f) → e.str f = c.str f
  int : ∀ f, (∀ i ∈ items, i.option.field.intField ≠ some f) → e.int f = c.int f

/-- Once every field that differs is set, the record is there. -/
theorem putItems_eq {e : CfgFields} (items : List Item) {c : CfgFields}
    (h : AgreeElse items e c) : putItems items e c = e := by
  induction items generalizing c with
  | nil =>
    have hstr : e.str = c.str := funext fun f => h.str f (by simp)
    have hint : e.int = c.int := funext fun f => h.int f (by simp)
    cases e
    cases c
    cases hstr
    cases hint
    rfl
  | cons i items ih =>
    refine ih ⟨fun f hf => ?_, fun f hf => ?_⟩
    · rw [CfgFields.put_str]
      by_cases hi : i.option.field.strField = some f
      · rw [if_pos hi]
      · rw [if_neg hi]
        apply h.str
        intro j hj
        rcases List.mem_cons.mp hj with rfl | hj
        · exact hi
        · exact hf j hj
    · rw [CfgFields.put_int]
      by_cases hi : i.option.field.intField = some f
      · rw [if_pos hi]
      · rw [if_neg hi]
        apply h.int
        intro j hj
        rcases List.mem_cons.mp hj with rfl | hj
        · exact hi
        · exact hf j hj

/-! Numbers. -/

theorem foldl_decimal (n : ℕ) :
    (decimal n).foldl (fun (n : ℤ) b => n*10+((b.toNat : ℤ)-48)) 0 = n := by
  have hfold : ∀ l : List Char, (∀ c ∈ l, c.isDigit = true) → ∀ k : ℕ,
      (l.map fun c => UInt8.ofNat c.toNat).foldl (fun (n : ℤ) b => n*10+((b.toNat : ℤ)-48)) k =
        Nat.ofDigitChars 10 l k := by
    intro l hl
    induction l with
    | nil => exact fun k => rfl
    | cons c l ih =>
      intro k
      obtain ⟨h0, h9⟩ := Char.isDigit_iff_toNat.mp (hl c List.mem_cons_self)
      have h0 : 48 ≤ c.toNat := h0
      have h9 : c.toNat ≤ 57 := h9
      have hbyte : (UInt8.ofNat c.toNat).toNat = c.toNat := by
        rw [UInt8.toNat_ofNat', Nat.mod_eq_of_lt (by omega)]
      have hzero : '0'.toNat = 48 := rfl
      have hstep : (k : ℤ)*10+(((UInt8.ofNat c.toNat).toNat : ℤ)-48) =
          ((10*k+(c.toNat - '0'.toNat) : ℕ) : ℤ) := by
        rw [hbyte, hzero]
        omega
      have hrest := ih (fun d hd => hl d (List.mem_cons_of_mem _ hd)) (10*k+(c.toNat - '0'.toNat))
      rw [List.map_cons, List.foldl_cons, hstep, hrest]
      rfl
  have h := hfold (Nat.toDigits 10 n)
    (fun c hc => Nat.isDigit_of_mem_toDigits (by decide) (by decide) hc) 0
  rw [Nat.ofDigitChars_ten_toDigits] at h
  exact h

theorem decimal_digits (n : ℕ) : ∀ b ∈ decimal n, (48 ≤ b && b ≤ 57) = true := by
  intro b hb
  obtain ⟨h0, h9⟩ := decimal_digit hb
  simp only [Bool.and_eq_true, decide_eq_true_eq, UInt8.le_iff_toNat_le]
  exact ⟨h0, h9⟩

/-- A number in digits, with a minus or without, is read back. -/
theorem atoi_decimal {n : ℕ} (h : n < 2^63) :
    atoi (decimal n) = Int32.ofInt n ∧ atoi (45 :: decimal n) = Int32.ofInt (-n) := by
  have htake : (decimal n).takeWhile (fun b => 48 ≤ b && b ≤ 57) = decimal n :=
    List.takeWhile_eq_self_iff.mpr (decimal_digits n)
  have hfold := foldl_decimal n
  constructor
  · rcases hd : decimal n with _ | ⟨b, rest⟩
    · exact absurd hd (decimal_ne_nil n)
    obtain ⟨h0, h9⟩ := decimal_digit (n := n) (b := b) (by rw [hd]; exact List.mem_cons_self)
    have hsp : isSpace b = false := by
      by_contra hb
      simp only [isSpace, Bool.not_eq_false, Bool.or_eq_true, beq_iff_eq, Bool.and_eq_true,
        decide_eq_true_eq, UInt8.le_iff_toNat_le] at hb
      rcases hb with rfl | ⟨-, hb⟩
      · revert h0
        decide
      · have h13 : (13 : UInt8).toNat = 13 := rfl
        omega
    have hne : ∀ d : UInt8, d.toNat < 48 → ¬some b = some d := by
      intro d hd heq
      rw [Option.some.inj heq] at h0
      omega
    have h45 := hne 45 (by decide)
    have h43 := hne 43 (by decide)
    rw [hd] at htake hfold
    rw [atoi, List.dropWhile_cons_of_neg (by simp [hsp])]
    simp only [List.head?_cons, h45, h43, or_self, if_false, htake, hfold]
    congr 1
    omega
  · rw [atoi, List.dropWhile_cons_of_neg (by decide)]
    simp only [List.head?_cons, true_or, if_true, List.tail_cons, htake, hfold]
    congr 1
    omega

/-- A printed number is read back. -/
theorem atoi_signedDecimal (i : Int32) : atoi (signedDecimal i.toInt) = i := by
  have hl := i.le_toInt
  have hu := i.toInt_lt
  obtain ⟨hpos, hneg⟩ := atoi_decimal (n := i.toInt.natAbs) (by omega)
  rw [signedDecimal]
  split
  · have habs : -(i.toInt.natAbs : ℤ) = i.toInt := by omega
    rw [hneg, habs, Int32.ofInt_toInt]
  · have habs : (i.toInt.natAbs : ℤ) = i.toInt := by omega
    rw [hpos, habs, Int32.ofInt_toInt]

/-! Saving the items. -/

/-- What the parser relies on in a table: every key is a word and finds its own
entry, with the `--` or without, and a protocol is a number. -/
structure TableOk (table : List Commandline) : Prop where
  word : ∀ c ∈ table, wordOption c = true
  find : ∀ c ∈ table, ∀ d, table.find? (·.named (keyText d c.option)) = some c
  protocol : ∀ c ∈ table, c.checkValidity = .protocol → c.field.strField = none

theorem commandLineOptions_ok : TableOk commandLineOptions :=
  ⟨by decide +kernel, by decide +kernel, by decide +kernel⟩

theorem baseCommandLineOptions_ok : TableOk baseCommandLineOptions :=
  ⟨by decide +kernel, by decide +kernel, by decide +kernel⟩

/-- The items state the record `e`, whose other fields are at their defaults. -/
structure Prints (o : Outside) (table : List Commandline) (items : List Item) (e : CfgFields) :
    Prop where
  known : ∀ i ∈ items, i.option ∈ table
  denotes : ∀ i ∈ items, Denotes i.option i.value.text e
  accepted : ∀ i ∈ items, Accepts o i.option i.value.text = true
  short : ∀ i ∈ items, i.text.length ≤ SNSD_CFG_NAME_MAX_LEN
  unmentioned : AgreeElse items e (snsdInitCfgWithDefault table)

/-- A check that accepts: only the base name of the host leaves something, and
only a protocol is replaced. -/
theorem checkValidity_accepted {o : Outside} {c : Commandline} {value : Bytes}
    (h : Accepts o c value = true) (s : CfgState) :
    ∃ hostnqn v, checkValidity o s c.checkValidity c.drvOption value =
        .ok (some ({ s with snsdHostnqn := hostnqn }, v)) ∧
      (c.checkValidity ≠ .protocol → v = value) ∧
      (c.checkValidity = .protocol → (protMatch.lookup value).map decimal = some v) := by
  rw [Accepts] at h
  cases hc : c.checkValidity with
  | none => exact ⟨s.snsdHostnqn, value, rfl, fun _ => rfl, by simp⟩
  | unsupport =>
    rw [hc] at h
    simp at h
  | ip =>
    rw [hc] at h
    exact ⟨s.snsdHostnqn, value, congrArg Except.ok (if_pos h), fun _ => rfl, by simp⟩
  | para =>
    rw [hc] at h
    exact ⟨s.snsdHostnqn, value, congrArg Except.ok (if_pos h), fun _ => rfl, by simp⟩
  | noarg =>
    rw [hc] at h
    exact ⟨s.snsdHostnqn, value, congrArg Except.ok (if_pos h), fun _ => rfl, by simp⟩
  | hostnqn =>
    rw [hc] at h
    have hl : ¬value.length ≥ SNSD_NQN_MAX_LEN := Nat.not_le_of_lt (of_decide_eq_true h)
    exact ⟨s.snsdHostnqn, value, congrArg Except.ok (if_neg hl), fun _ => rfl, by simp⟩
  | baseHostnqn =>
    rw [hc] at h
    have hl : value.length < SNSD_NQN_MAX_LEN := of_decide_eq_true h
    have hroom : 0+value.length ≤ SNSD_NQN_MAX_LEN := by omega
    refine ⟨s.snsdHostnqn.write 0 value, value, ?_, fun _ => rfl, by simp⟩
    rw [checkValidity, if_neg (Nat.not_le_of_lt hl), Mem.store_ok hroom]
    rfl
  | protocol =>
    rw [hc] at h
    obtain ⟨n, hn⟩ := Option.isSome_iff_exists.mp h
    refine ⟨s.snsdHostnqn, decimal n, ?_, by simp, fun _ => by rw [hn]; rfl⟩
    rw [checkValidity, snsdCheckProtocolValidity, hn]
    rfl

/-- The numbers of the protocols. -/
theorem protMatch_lookup {value : Bytes} {n : ℕ} (h : protMatch.lookup value = some n) :
    n = SNSD_PROTOCOL_ROCE ∨ n = SNSD_PROTOCOL_TCP ∨ n = SNSD_PROTOCOL_ISCSI := by
  obtain ⟨l, more, hl, -⟩ := List.lookup_eq_some_iff.mp h
  have hmem : (value, n) ∈ protMatch := by
    rw [hl]
    exact List.mem_append_right _ List.mem_cons_self
  simp only [protMatch, List.mem_cons, List.not_mem_nil, or_false, Prod.mk.injEq] at hmem
  rcases hmem with ⟨-, rfl⟩ | ⟨-, rfl⟩ | ⟨-, rfl⟩
  · exact Or.inl rfl
  · exact Or.inr (Or.inl rfl)
  · exact Or.inr (Or.inr rfl)

/-- An accepted item is saved as what it states. -/
theorem saveOneItem_eq {o : Outside} {sectionName : Bytes} {r : Record} {table : List Commandline}
    (ht : sectionTable sectionName = (r, table)) (hok : TableOk table) {i : Item} {e : CfgFields}
    (hmem : i.option ∈ table) (hden : Denotes i.option i.value.text e)
    (hacc : Accepts o i.option i.value.text = true) (s : CfgState) :
    ∃ hostnqn, snsdSaveOneItem o sectionName i.key i.value.text s =
      .ok (({ s with snsdHostnqn := hostnqn }).setRecord r ((s.record r).put i.option.field e), 0) := by
  obtain ⟨hostnqn, v, hv, hkeep, hprot⟩ := checkValidity_accepted hacc s
  refine ⟨hostnqn, ?_⟩
  have hrec : ({ s with snsdHostnqn := hostnqn }).record r = s.record r := by
    cases r <;> rfl
  rw [snsdSaveOneItem, ht]
  simp only
  rw [Item.key, hok.find _ hmem]
  simp only [snsdCheckAndSave, hv, ok_bind]
  rw [Denotes] at hden
  cases hf : i.option.field with
  | str f =>
    rw [hf] at hden
    simp only at hden
    have hnp : i.option.checkValidity ≠ .protocol := by
      intro hp
      have h := hok.protocol _ hmem hp
      rw [hf] at h
      simp [OptionField.strField] at h
    obtain rfl := hkeep hnp
    have hfit : ¬i.value.text.length ≥ f.size := by
      rw [hden]
      exact Nat.not_le_of_lt (e.str f).fits
    have hclip : CStr.clip f.size_pos i.value.text = e.str f := by
      apply CStr.ext
      rw [hden]
      exact CStr.clip_text (e.str f).noNul (e.str f).fits
    simp only [if_neg hfit, hclip, hrec]
    rfl
  | int f d =>
    rw [hf] at hden
    simp only at hden
    have hval : atoi v = e.int f := by
      by_cases hp : i.option.checkValidity = .protocol
      · rw [if_pos hp] at hden
        have hdec := hprot hp
        obtain ⟨n, hn, hne⟩ := Option.map_eq_some_iff.mp hden
        rw [hn] at hdec
        obtain rfl := Option.some.inj hdec
        have hsmall : n < 2^63 := by
          rcases protMatch_lookup hn with rfl | rfl | rfl <;> decide
        rw [(atoi_decimal hsmall).1, ← hne]
        rfl
      · rw [if_neg hp] at hden
        rw [hkeep hp, hden]
    simp only [hval, hrec]
    rfl

/-- The items of a line. -/
theorem runParts_items {o : Outside} {sectionName : Bytes} {r : Record} {table : List Commandline}
    (ht : sectionTable sectionName = (r, table)) (hok : TableOk table) {e : CfgFields}
    (items : List Item) (hmem : ∀ i ∈ items, i.option ∈ table)
    (hden : ∀ i ∈ items, Denotes i.option i.value.text e)
    (hacc : ∀ i ∈ items, Accepts o i.option i.value.text = true)
    (hshort : ∀ i ∈ items, i.text.length ≤ SNSD_CFG_NAME_MAX_LEN) (s : CfgState) :
    ∃ hostnqn, runParts o sectionName (items.map Item.text) s =
      .ok (({ s with snsdHostnqn := hostnqn }).setRecord r (putItems items e (s.record r)), 0) := by
  induction items generalizing s with
  | nil =>
    refine ⟨s.snsdHostnqn, ?_⟩
    cases r <;> rfl
  | cons i items ih =>
    have hi : i ∈ i :: items := List.mem_cons_self
    obtain ⟨hostnqn, hsave⟩ := saveOneItem_eq ht hok (hmem i hi) (hden i hi) (hacc i hi) s
    obtain ⟨hostnqn', hrest⟩ := ih (fun j hj => hmem j (List.mem_cons_of_mem _ hj))
      (fun j hj => hden j (List.mem_cons_of_mem _ hj)) (fun j hj => hacc j (List.mem_cons_of_mem _ hj))
      (fun j hj => hshort j (List.mem_cons_of_mem _ hj))
      (({ s with snsdHostnqn := hostnqn }).setRecord r ((s.record r).put i.option.field e))
    have hnamed : i.Named := hok.word _ (hmem i hi)
    refine ⟨hostnqn', ?_⟩
    rw [List.map_cons, runParts, if_neg (Nat.not_lt.mpr (hshort i hi)), runItem, itemOf_text hnamed]
    simp only [hsave, ok_bind]
    change runParts o sectionName (items.map Item.text) _ = _
    rw [hrest]
    cases r <;> rfl

/-! Entries. -/

/-- The section that holds the entries of a mode. -/
def SnsdMode.sectionName : SnsdMode → Bytes
  | .sw => SNSD_SECTION_SW_NAME
  | .dc => SNSD_SECTION_DC_NAME

def CfgState.infoList (s : CfgState) : SnsdMode → List CfgInfos
  | .sw => s.swInfoList
  | .dc => s.dcInfoList

/-- What a mode demands: an address, or a protocol. -/
def mandatoryKind (c : Commandline) : Bool :=
  match c.checkValidity, c.field with
  | .ip, .str _ => true
  | .protocol, .int _ d => d == 0
  | _, _ => false

theorem mandatoryKind_of_must {c : Commandline} (hc : c ∈ commandLineOptions) {mode : SnsdMode}
    (h : c.necessary mode.sectionName = .must) : mandatoryKind c = true := by
  revert h
  cases mode <;> revert c <;> decide +kernel

/-- A line that states an entry of a mode. -/
structure PrintsEntry (o : Outside) (mode : SnsdMode) (l : Line) (e : CfgFields) : Prop extends
    Prints o commandLineOptions l.items e where
  fits : l.text.length < SNSD_CFG_VALUE_MAX_LEN
  mandatory : ∀ c ∈ commandLineOptions, c.necessary mode.sectionName = .must →
    ∃ i ∈ l.items, i.option = c

/-- No family of addresses takes the mark of an unset string. -/
def RejectsInvalid (o : Outside) : Prop := ∀ family, o.inetPton family invalid = false

theorem not_atDefault {o : Outside} (hinv : RejectsInvalid o) {i : Item} {e : CfgFields}
    (hk : mandatoryKind i.option = true) (hden : Denotes i.option i.value.text e)
    (hacc : Accepts o i.option i.value.text = true) : e.atDefault i.option.field = false := by
  rw [mandatoryKind] at hk
  rw [Accepts] at hacc
  rw [Denotes] at hden
  cases hc : i.option.checkValidity with
  | ip =>
    rw [hc] at hk hacc
    cases hf : i.option.field with
    | int f d =>
      rw [hf] at hk
      simp at hk
    | str f =>
      rw [hf] at hden
      simp only at hden hacc
      by_contra h
      simp only [CfgFields.atDefault, Bool.not_eq_false, beq_iff_eq] at h
      rw [hden, h, snsdCheckIpValidity, hinv, hinv] at hacc
      revert hacc
      decide
  | protocol =>
    rw [hc] at hk
    cases hf : i.option.field with
    | str f =>
      rw [hf] at hk
      simp at hk
    | int f d =>
      rw [hf] at hk hden
      simp only [beq_iff_eq] at hk
      subst hk
      simp only [if_pos hc] at hden
      obtain ⟨n, hn, hne⟩ := Option.map_eq_some_iff.mp hden
      rw [CfgFields.atDefault, ← hne]
      rcases protMatch_lookup hn with rfl | rfl | rfl <;> decide
  | none =>
    rw [hc] at hk
    simp at hk
  | unsupport =>
    rw [hc] at hk
    simp at hk
  | para =>
    rw [hc] at hk
    simp at hk
  | noarg =>
    rw [hc] at hk
    simp at hk
  | hostnqn =>
    rw [hc] at hk
    simp at hk
  | baseHostnqn =>
    rw [hc] at hk
    simp at hk

theorem sectionTable_mode (mode : SnsdMode) :
    sectionTable mode.sectionName = (.cfg, commandLineOptions) := by
  cases mode <;> rfl

theorem addOneCfg_mode (mode : SnsdMode) {s : CfgState}
    (h : snsdCheckNecessary mode.sectionName s = true) :
    ∃ s', snsdAddOneCfg mode.sectionName s = (s', 0) ∧ s'.baseCfg = s.baseCfg ∧
      s'.infoList mode = s.infoList mode ++ [⟨s.cfg, mode⟩] ∧
      ∀ m, m ≠ mode → s'.infoList m = s.infoList m := by
  rw [snsdAddOneCfg, h]
  cases mode with
  | sw =>
    refine ⟨_, rfl, ?_, ?_, fun m hm => ?_⟩
    · simp only
      split <;> rfl
    · simp only [CfgState.infoList]
      split <;> rfl
    · cases m with
      | sw => exact absurd rfl hm
      | dc =>
        simp only [CfgState.infoList]
        split <;> rfl
  | dc =>
    refine ⟨{ s with dcInfoList := s.dcInfoList ++ [⟨s.cfg, .dc⟩] }, rfl, rfl, rfl, fun m hm => ?_⟩
    cases m with
    | sw => rfl
    | dc => exact absurd rfl hm

/-- A line of an entry adds that entry. -/
theorem runLine_entry {o : Outside} (hinv : RejectsInvalid o) {mode : SnsdMode} {l : Line}
    {e : CfgFields} (h : PrintsEntry o mode l e) (hne : l.items ≠ []) (s : CfgState) :
    ∃ s', runLine o mode.sectionName l.text s = .ok (s', 0) ∧ s'.baseCfg = s.baseCfg ∧
      s'.infoList mode = s.infoList mode ++ [⟨e, mode⟩] ∧
      ∀ m, m ≠ mode → s'.infoList m = s.infoList m := by
  have hnamed : ∀ i ∈ l.items, i.Named := fun i hi => commandLineOptions_ok.word _ (h.known i hi)
  obtain ⟨hostnqn, hparts⟩ := runParts_items (sectionTable_mode mode) commandLineOptions_ok l.items
    h.known h.denotes h.accepted h.short (snsdInitCfg s)
  have hcfg : putItems l.items e ((snsdInitCfg s).record .cfg) = e := putItems_eq l.items h.unmentioned
  rw [hcfg] at hparts
  have hneed : snsdCheckNecessary mode.sectionName
      (({ snsdInitCfg s with snsdHostnqn := hostnqn }).setRecord .cfg e) = true := by
    rw [snsdCheckNecessary, Bool.or_eq_true, List.all_eq_true]
    refine Or.inr fun c hc => ?_
    by_cases hm : c.necessary mode.sectionName = .must
    · obtain ⟨i, hi, rfl⟩ := h.mandatory c hc hm
      have hset := not_atDefault hinv (mandatoryKind_of_must hc hm) (h.denotes i hi) (h.accepted i hi)
      have hcfg' : (({ snsdInitCfg s with snsdHostnqn := hostnqn }).setRecord .cfg e).cfg = e := rfl
      rw [hcfg', hset]
      simp
    · simp [hm]
  obtain ⟨s', hadd, hbase, hin, hother⟩ := addOneCfg_mode mode hneed
  refine ⟨s', ?_, hbase, ?_, fun m hm => ?_⟩
  · rw [runLine, lineText_eq hnamed, splitOn_line hnamed hne, hparts]
    simp only [ok_bind, ne_eq, not_true_eq_false, if_false, hadd]
    rfl
  · rw [hin]
    cases mode <;> rfl
  · rw [hother m hm]
    cases m <;> rfl

/-- The lines of a section add their entries in order. -/
theorem runLines_entries {o : Outside} (hinv : RejectsInvalid o) {mode : SnsdMode} {ls : List Line}
    {es : List CfgFields} (h : List.Forall₂ (PrintsEntry o mode) ls es) (hne : ∀ l ∈ ls, l.items ≠ [])
    (s : CfgState) :
    ∃ s', runLines o mode.sectionName (ls.map Line.text) s = .ok (s', 0) ∧ s'.baseCfg = s.baseCfg ∧
      s'.infoList mode = s.infoList mode ++ es.map (⟨·, mode⟩) ∧
      ∀ m, m ≠ mode → s'.infoList m = s.infoList m := by
  induction h generalizing s with
  | nil => exact ⟨s, rfl, rfl, (List.append_nil _).symm, fun _ _ => rfl⟩
  | @cons l e ls es hl _ ih =>
    obtain ⟨t, ht, hbase, hin, hother⟩ := runLine_entry hinv hl (hne l List.mem_cons_self) s
    obtain ⟨s', hs', hbase', hin', hother'⟩ := ih (fun k hk => hne k (List.mem_cons_of_mem _ hk)) t
    refine ⟨s', ?_, hbase'.trans hbase, ?_, fun m hm => (hother' m hm).trans (hother m hm)⟩
    · rw [List.map_cons, runLines, if_neg (Nat.not_le_of_lt hl.fits), ht]
      exact hs'
    · rw [hin', hin, List.append_assoc]
      rfl

/-! The base section. -/

theorem sectionTable_base :
    sectionTable SNSD_SECTION_BASE_NAME = (.base, baseCommandLineOptions) := if_pos rfl

theorem addOneCfg_base (s : CfgState) : snsdAddOneCfg SNSD_SECTION_BASE_NAME s = (s, 0) := by
  rw [snsdAddOneCfg, snsdCheckNecessary, beq_self_eq_true, Bool.true_or]
  rfl

theorem runLines_base (o : Outside) (e : CfgFields) (ls : List Line)
    (hmem : ∀ l ∈ ls, ∀ i ∈ l.items, i.option ∈ baseCommandLineOptions)
    (hden : ∀ l ∈ ls, ∀ i ∈ l.items, Denotes i.option i.value.text e)
    (hacc : ∀ l ∈ ls, ∀ i ∈ l.items, Accepts o i.option i.value.text = true)
    (hshort : ∀ l ∈ ls, ∀ i ∈ l.items, i.text.length ≤ SNSD_CFG_NAME_MAX_LEN)
    (hfit : ∀ l ∈ ls, l.text.length < SNSD_CFG_VALUE_MAX_LEN) (hne : ∀ l ∈ ls, l.items ≠ [])
    (s : CfgState) :
    ∃ s', runLines o SNSD_SECTION_BASE_NAME (ls.map Line.text) s = .ok (s', 0) ∧
      s'.baseCfg = putItems (ls.flatMap Line.items) e s.baseCfg ∧
      ∀ m, s'.infoList m = s.infoList m := by
  induction ls generalizing s with
  | nil => exact ⟨s, rfl, rfl, fun _ => rfl⟩
  | cons l ls ih =>
    have hl : l ∈ l :: ls := List.mem_cons_self
    have hnamed : ∀ i ∈ l.items, i.Named :=
      fun i hi => baseCommandLineOptions_ok.word _ (hmem l hl i hi)
    obtain ⟨hostnqn, hparts⟩ := runParts_items sectionTable_base baseCommandLineOptions_ok l.items
      (hmem l hl) (hden l hl) (hacc l hl) (hshort l hl) (snsdInitCfg s)
    obtain ⟨s', hs', hbase, hother⟩ := ih (fun k hk => hmem k (List.mem_cons_of_mem _ hk))
      (fun k hk => hden k (List.mem_cons_of_mem _ hk)) (fun k hk => hacc k (List.mem_cons_of_mem _ hk))
      (fun k hk => hshort k (List.mem_cons_of_mem _ hk)) (fun k hk => hfit k (List.mem_cons_of_mem _ hk))
      (fun k hk => hne k (List.mem_cons_of_mem _ hk))
      (({ snsdInitCfg s with snsdHostnqn := hostnqn }).setRecord .base
        (putItems l.items e ((snsdInitCfg s).record .base)))
    have hline : runLine o SNSD_SECTION_BASE_NAME l.text s =
        .ok (({ snsdInitCfg s with snsdHostnqn := hostnqn }).setRecord .base
          (putItems l.items e ((snsdInitCfg s).record .base)), 0) := by
      rw [runLine, lineText_eq hnamed, splitOn_line hnamed (hne l hl), hparts]
      simp only [ok_bind, ne_eq, not_true_eq_false, if_false, addOneCfg_base]
      rfl
    refine ⟨s', ?_, ?_, fun m => ?_⟩
    · rw [List.map_cons, runLines, if_neg (Nat.not_le_of_lt (hfit l hl)), hline]
      exact hs'
    · rw [hbase, List.flatMap_cons, putItems_append]
      rfl
    · rw [hother]
      cases m <;> rfl

/-! The whole file. -/

theorem exists_of_forall₂ {α β : Type} {R : α → β → Prop} {l : List α} {m : List β}
    (h : List.Forall₂ R l m) : ∀ a ∈ l, ∃ b, R a b := by
  induction h with
  | nil => simp
  | @cons a b l m hab _ ih =>
    intro x hx
    rcases List.mem_cons.mp hx with rfl | hx
    · exact ⟨b, hab⟩
    · exact ih x hx

theorem mem_entryLines {ls : List Line} {l : Line} :
    l ∈ entryLines ls ↔ l ∈ ls ∧ l.items ≠ [] := by
  simp [entryLines]

theorem flatMap_entryLines (ls : List Line) :
    (entryLines ls).flatMap Line.items = ls.flatMap Line.items := by
  induction ls with
  | nil => rfl
  | cons l ls ih =>
    rw [entryLines] at ih
    rw [entryLines, List.filter_cons, List.flatMap_cons]
    split
    · rw [List.flatMap_cons, ih]
    · rename_i h
      have hnil : l.items = [] := by simpa using h
      rw [ih, hnil, List.nil_append]

/-- A file that states base values and lists of entries, its sections in any
order. -/
structure PrintsConfig (o : Outside) (secs : List Section) (base sw dc : List Line)
    (b : CfgFields) (sws dcs : List CfgFields) : Prop where
  sections : (secs.map fun s => (s.name, s.lines)).Perm
    [(SNSD_SECTION_BASE_NAME, base), (SNSD_SECTION_SW_NAME, sw), (SNSD_SECTION_DC_NAME, dc)]
  size : (printFile secs).length < SNSD_CFG_FILE_MAX_SIZE
  basePrints : Prints o baseCommandLineOptions (base.flatMap Line.items) b
  baseFits : ∀ l ∈ base, l.text.length < SNSD_CFG_VALUE_MAX_LEN
  swPrints : List.Forall₂ (PrintsEntry o .sw) (entryLines sw) sws
  dcPrints : List.Forall₂ (PrintsEntry o .dc) (entryLines dc) dcs

namespace PrintsConfig
variable {o : Outside} {secs : List Section} {base sw dc : List Line} {b : CfgFields}
  {sws dcs : List CfgFields}

theorem named_entries {mode : SnsdMode} {ls : List Line} {es : List CfgFields}
    (h : List.Forall₂ (PrintsEntry o mode) (entryLines ls) es) :
    ∀ l ∈ ls, ∀ i ∈ l.items, i.Named := by
  intro l hl i hi
  obtain ⟨e, he⟩ := exists_of_forall₂ h l (mem_entryLines.mpr ⟨hl, List.ne_nil_of_mem hi⟩)
  exact commandLineOptions_ok.word _ (he.known i hi)

theorem named_base (h : PrintsConfig o secs base sw dc b sws dcs) :
    ∀ l ∈ base, ∀ i ∈ l.items, i.Named := by
  intro l hl i hi
  exact baseCommandLineOptions_ok.word _
    (h.basePrints.known i (List.mem_flatMap.mpr ⟨l, hl, hi⟩))

/-- A section of the three, read from the file. -/
theorem getSectionInfo (h : PrintsConfig o secs base sw dc b sws dcs) {name : Bytes}
    {ls : List Line} (hmem : (name, ls) ∈ [(SNSD_SECTION_BASE_NAME, base),
      (SNSD_SECTION_SW_NAME, sw), (SNSD_SECTION_DC_NAME, dc)]) (s : CfgState) :
    snsdGetSectionInfo o (printFile secs) name s =
      runLines o name ((entryLines ls).map Line.text) s := by
  have hplain : ∀ s ∈ secs, s.Plain := by
    intro s hs
    have hin := h.sections.mem_iff.mp (List.mem_map_of_mem (f := fun s => (s.name, s.lines)) hs)
    simp only [List.mem_cons, List.not_mem_nil, or_false, Prod.mk.injEq] at hin
    rcases hin with ⟨hname, hlines⟩ | ⟨hname, hlines⟩ | ⟨hname, hlines⟩
    · refine ⟨?_, ?_, ?_, ?_⟩
      · rw [hname]; decide
      · rw [hname]; decide
      · rw [hname]; decide
      · rw [hlines]; exact h.named_base
    · refine ⟨?_, ?_, ?_, ?_⟩
      · rw [hname]; decide
      · rw [hname]; decide
      · rw [hname]; decide
      · rw [hlines]; exact named_entries h.swPrints
    · refine ⟨?_, ?_, ?_, ?_⟩
      · rw [hname]; decide
      · rw [hname]; decide
      · rw [hname]; decide
      · rw [hlines]; exact named_entries h.dcPrints
  have hnodup : (secs.map Section.name).Nodup := by
    have hperm := h.sections.map Prod.fst
    rw [List.map_map] at hperm
    exact hperm.nodup_iff.mpr (by simp only [List.map_cons, List.map_nil]; decide)
  obtain ⟨sec, hsec, heq⟩ := List.mem_map.mp (h.sections.mem_iff.mpr hmem)
  obtain ⟨rfl, rfl⟩ := Prod.mk.inj heq
  obtain ⟨n, hn⟩ := sectionText_printFile hplain hnodup hsec
  have hnamed := (hplain sec hsec).named
  rw [getSectionInfo_eq o sec.name s h.size, hn]
  simp only
  rw [blankFree_section hnamed, itemLines_space _ (by decide), itemLines_section hnamed]

end PrintsConfig

/-- What `snsd_cfg_init` starts to read with. -/
def startCfg (s : CfgState) : CfgState :=
  snsdInitBaseCfg { s with swInfoList := [], dcInfoList := [], snsdHostnqn := Mem.zero _ }

/-- The records come back as they were written. -/
theorem config_round_trip {o : Outside} {secs : List Section} {base sw dc : List Line}
    {b : CfgFields} {sws dcs : List CfgFields} (hinv : RejectsInvalid o)
    (h : PrintsConfig o secs base sw dc b sws dcs) (s : CfgState) :
    ∃ s1 s2 s3,
      snsdGetSectionInfo o (printFile secs) SNSD_SECTION_BASE_NAME (startCfg s) = .ok (s1, 0) ∧
      snsdGetSectionInfo o (printFile secs) SNSD_SECTION_SW_NAME s1 = .ok (s2, 0) ∧
      snsdGetSectionInfo o (printFile secs) SNSD_SECTION_DC_NAME s2 = .ok (s3, 0) ∧
      s3.baseCfg = b ∧ s3.swInfoList = sws.map (⟨·, .sw⟩) ∧ s3.dcInfoList = dcs.map (⟨·, .dc⟩) := by
  have hitem : ∀ l ∈ entryLines base, ∀ i ∈ l.items, i ∈ base.flatMap Line.items :=
    fun l hl i hi => List.mem_flatMap.mpr ⟨l, (mem_entryLines.mp hl).1, hi⟩
  have hp := h.basePrints
  obtain ⟨s1, hs1, hbase1, hlist1⟩ := runLines_base o b (entryLines base)
    (fun l hl i hi => hp.known i (hitem l hl i hi)) (fun l hl i hi => hp.denotes i (hitem l hl i hi))
    (fun l hl i hi => hp.accepted i (hitem l hl i hi)) (fun l hl i hi => hp.short i (hitem l hl i hi))
    (fun l hl => h.baseFits l (mem_entryLines.mp hl).1) (fun l hl => (mem_entryLines.mp hl).2)
    (startCfg s)
  obtain ⟨s2, hs2, hbase2, hin2, hother2⟩ := runLines_entries hinv h.swPrints
    (fun l hl => (mem_entryLines.mp hl).2) s1
  obtain ⟨s3, hs3, hbase3, hin3, hother3⟩ := runLines_entries hinv h.dcPrints
    (fun l hl => (mem_entryLines.mp hl).2) s2
  have hfields : putItems (base.flatMap Line.items) b (startCfg s).baseCfg = b :=
    putItems_eq _ hp.unmentioned
  refine ⟨s1, s2, s3, ?_, ?_, ?_, ?_, ?_, ?_⟩
  · rw [h.getSectionInfo (show (SNSD_SECTION_BASE_NAME, base) ∈ _ by simp)]
    exact hs1
  · rw [h.getSectionInfo (show (SNSD_SECTION_SW_NAME, sw) ∈ _ by simp)]
    exact hs2
  · rw [h.getSectionInfo (show (SNSD_SECTION_DC_NAME, dc) ∈ _ by simp)]
    exact hs3
  · rw [hbase3, hbase2, hbase1, flatMap_entryLines, hfields]
  · have hsw : s3.infoList .sw = sws.map (⟨·, .sw⟩) := by
      rw [hother3 .sw (by decide), hin2, hlist1]
      exact List.nil_append _
    exact hsw
  · have hdc : s3.infoList .dc = dcs.map (⟨·, .dc⟩) := by
      rw [hin3, hother2 .dc (by decide), hlist1]
      exact List.nil_append _
    exact hdc

/-! A small configuration, and one whose entry lacks what is mandatory. -/

def trsvcidItem : Item :=
  ⟨optionalOption "trsvcid" (.str .trsvcid) .para "trsvcid", true,
    ⟨ascii "4420", by decide, forall_mem_of_all (by decide)⟩, 0, 1, 1, 0⟩

def hostItem : Item :=
  ⟨⟨ascii "host-traddr", .str .hostTraddr, .must, .must, .ip, ascii "host_traddr"⟩, true,
    ⟨ascii "10.0.0.1", by decide, forall_mem_of_all (by decide)⟩, 0, 1, 1, 1⟩

def protocolItem : Item :=
  ⟨⟨ascii "protocol", .int .protocol 0, .must, .must, .protocol, ascii "protocol"⟩, false,
    ⟨ascii "tcp", by decide, forall_mem_of_all (by decide)⟩, 1, 0, 0, 2⟩

/-- One base value, and the switch entries on `lines`. -/
def smallConfig (lines : List Line) : List Section :=
  [⟨0, SNSD_SECTION_BASE_NAME, [⟨4, [trsvcidItem]⟩, ⟨2, []⟩]⟩, ⟨1, SNSD_SECTION_SW_NAME, lines⟩,
    ⟨0, SNSD_SECTION_DC_NAME, []⟩]

/-- The base record of the small configuration. -/
def smallBase : CfgFields :=
  (snsdInitCfgWithDefault baseCommandLineOptions).setStr .trsvcid
    (CStr.clip StrField.trsvcid.size_pos (ascii "4420"))

/-- Its switch entry. -/
def smallEntry : CfgFields :=
  ((snsdInitCfgWithDefault commandLineOptions).setStr .hostTraddr
    (CStr.clip StrField.hostTraddr.size_pos (ascii "10.0.0.1"))).setInt .protocol 2

theorem smallBase_prints : Prints acceptAll baseCommandLineOptions [trsvcidItem] smallBase := by
  refine ⟨?_, ?_, ?_, ?_, ⟨fun f hf => ?_, fun f _ => rfl⟩⟩
  · simp only [List.forall_mem_singleton]
    decide
  · simp only [List.forall_mem_singleton]
    have hval : smallBase.str .trsvcid = CStr.clip StrField.trsvcid.size_pos (ascii "4420") :=
      CfgFields.setStr_self _ _ _
    change ascii "4420" = (smallBase.str .trsvcid).text
    rw [hval]
    decide
  · simp only [List.forall_mem_singleton]
    decide
  · simp only [List.forall_mem_singleton]
    decide
  · have hne : f ≠ .trsvcid := by
      rintro rfl
      exact hf trsvcidItem List.mem_cons_self rfl
    exact Function.update_of_ne hne _ _

theorem smallEntry_prints :
    PrintsEntry acceptAll .sw ⟨4, [hostItem, protocolItem]⟩ smallEntry := by
  refine ⟨⟨?_, ?_, ?_, ?_, ⟨fun f hf => ?_, fun f hf => ?_⟩⟩, by decide, ?_⟩
  · simp only [List.forall_mem_cons]
    decide
  · simp only [List.forall_mem_cons, List.not_mem_nil, false_imp_iff, implies_true, and_true]
    constructor
    · have hval : smallEntry.str .hostTraddr =
          CStr.clip StrField.hostTraddr.size_pos (ascii "10.0.0.1") :=
        CfgFields.setStr_self (snsdInitCfgWithDefault commandLineOptions) .hostTraddr _
      change ascii "10.0.0.1" = (smallEntry.str .hostTraddr).text
      rw [hval]
      decide
    · have hval : smallEntry.int .protocol = 2 := CfgFields.setInt_self _ _ _
      rw [Denotes]
      simp only [protocolItem, hval, if_true]
      decide
  · simp only [List.forall_mem_cons]
    decide
  · simp only [List.forall_mem_cons]
    decide
  · have hne : f ≠ .hostTraddr := by
      rintro rfl
      exact hf hostItem List.mem_cons_self rfl
    exact Function.update_of_ne hne _ _
  · have hne : f ≠ .protocol := by
      rintro rfl
      exact hf protocolItem (List.mem_cons_of_mem _ List.mem_cons_self) rfl
    exact Function.update_of_ne hne _ _
  · decide +kernel

theorem smallConfig_prints :
    PrintsConfig acceptAll (smallConfig [⟨4, [hostItem, protocolItem]⟩])
      [⟨4, [trsvcidItem]⟩, ⟨2, []⟩] [⟨4, [hostItem, protocolItem]⟩] [] smallBase [smallEntry] [] :=
  ⟨List.Perm.refl _, by decide +kernel, smallBase_prints, by decide +kernel,
    List.Forall₂.cons smallEntry_prints List.Forall₂.nil, List.Forall₂.nil⟩

/-- The small configuration is read back. -/
theorem smallConfig_round_trip :
    ∃ s1 s2 s3,
      snsdGetSectionInfo acceptAll (printFile (smallConfig [⟨4, [hostItem, protocolItem]⟩]))
        SNSD_SECTION_BASE_NAME (startCfg clearState) = .ok (s1, 0) ∧
      snsdGetSectionInfo acceptAll (printFile (smallConfig [⟨4, [hostItem, protocolItem]⟩]))
        SNSD_SECTION_SW_NAME s1 = .ok (s2, 0) ∧
      snsdGetSectionInfo acceptAll (printFile (smallConfig [⟨4, [hostItem, protocolItem]⟩]))
        SNSD_SECTION_DC_NAME s2 = .ok (s3, 0) ∧
      s3.baseCfg = smallBase ∧ s3.swInfoList = [⟨smallEntry, .sw⟩] ∧ s3.dcInfoList = [] :=
  config_round_trip (fun _ => rfl) smallConfig_prints clearState

/-- An entry without its protocol is rejected, though each of its items is in
order. -/
theorem entry_without_protocol :
    Accepts acceptAll hostItem.option hostItem.value.text = true ∧
    ((snsdGetSectionInfo acceptAll (printFile (smallConfig [⟨4, [hostItem]⟩]))
      SNSD_SECTION_SW_NAME clearState).map (·.2)).toOption = some (-EPERM) := by
  constructor
  · decide
  · decide +kernel

end NvmeSnsd.Cfg
