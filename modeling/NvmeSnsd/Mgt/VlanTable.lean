import NvmeSnsd.Lib.Search
import NvmeSnsd.Cfg.RoundTrip
import NvmeSnsd.Mgt.Vlan

/-! Which row of the VLAN table is found for a name. -/
namespace NvmeSnsd.Mgt
open Lib Cfg

/-- A name that the kernel lets an interface have. -/
structure IfName where
  text : Bytes
  ne : text ≠ []
  fits : text.length < IFNAMSIZ
  word : ∀ b ∈ text, isSpace b = false ∧ b ≠ 0

/-- A row `name | id | device`, with blanks around its columns. -/
structure VlanRow where
  name : Bytes
  id : ℕ
  device : Bytes
  gap : Fin 6 → Bytes
  name_fits : name.length < IFNAMSIZ
  name_word : ∀ b ∈ name, isBlank b = false ∧ inRow b = true ∧ b ≠ 124 ∧ b ≠ 0
  id_le : id ≤ 4094
  device_ne : device ≠ []
  device_fits : device.length < IFNAMSIZ
  device_word : ∀ b ∈ device, isSpace b = false ∧ b ≠ 0
  gap_blank : ∀ i, ∀ b ∈ gap i, isBlank b = true

namespace VlanRow

/-- What follows the column of the name. -/
def tail (r : VlanRow) : Bytes :=
  r.gap 2 ++ decimal r.id ++ r.gap 3 ++ 124 :: (r.gap 4 ++ r.device ++ r.gap 5)

def text (r : VlanRow) : Bytes := r.gap 0 ++ (r.name ++ r.gap 1 ++ 124 :: r.tail)

end VlanRow

/-- The lines of the header, then the rows. -/
def vlanText (header : List Bytes) (rows : List VlanRow) : Bytes :=
  (header ++ rows.map (·.text)).flatMap (· ++ [10])

/-- Where the row with a name has it. -/
def namePlace (item : Bytes) : List VlanRow → Option ℕ
  | [] => none
  | r :: rows =>
    if r.name = item then some (r.gap 0).length
    else (namePlace item rows).map (·+(r.text.length+1))

/-- The search finds the item at the end of a column, and less than the size of the
buffer for it before the column's end. -/
def ColumnStops (item column : Bytes) : Prop :=
  (search item (fun v => v.length < SNSD_CFG_NAME_MAX_LEN ∧ (v.drop item.length).all isBlank)
    column).isSome

instance (item column : Bytes) : Decidable (ColumnStops item column) :=
  inferInstanceAs (Decidable (_ = _))

/-- A row with a place where the search for an item ends. An item with a bar in it is
compared up to the bar only. -/
def VlanRow.Stops (item : Bytes) (r : VlanRow) : Prop :=
  if 124 ∈ item then item <:+: r.text
  else ∃ c ∈ (r.text.splitOn 124).dropLast, ColumnStops item c

instance (item : Bytes) (r : VlanRow) : Decidable (r.Stops item) :=
  inferInstanceAs (Decidable (ite _ _ _))

/-- No row before the one with the name ends the search, and the column of the name
fits the buffer. -/
def ClearTo (item : Bytes) (rows : List VlanRow) : Prop :=
  (∀ r ∈ rows.takeWhile (·.name != item), ¬ r.Stops item) ∧
    ∀ r ∈ rows, r.name = item → r.name.length+(r.gap 1).length < SNSD_CFG_NAME_MAX_LEN

/-- The id and the device of the row with the name, if there is one. -/
def VlanFound (name vlan : Bytes) (rows : List VlanRow) : Prop :=
  (∀ r ∈ rows, r.name = cstr name → ∃ id pos, snsdFillVlan name vlan = .ok (id, pos) ∧
      id.toInt = r.id ∧ snsdGetPhyIfname vlan pos = some r.device) ∧
    ((∀ r ∈ rows, r.name ≠ cstr name) →
      ∃ pos, snsdFillVlan name vlan = .ok (SNSD_INVALID_VLAN, pos))

/-! The test of a place. -/

theorem cstr_of_noNul {b : Bytes} (h : 0 ∉ b) : cstr b = b := by
  rw [cstr, List.takeWhile_eq_self_iff]
  intro x hx
  rw [bne_iff_ne]
  rintro rfl
  exact h hx

theorem strncmpEq_noNul {a b : Bytes} (ha : 0 ∉ a) (hb : 0 ∉ b) :
    strncmpEq a b a.length = true ↔ a <+: b := by
  rw [strncmpEq, cstr_of_noNul ha, cstr_of_noNul hb, List.take_length, beq_iff_eq]
  exact List.prefix_iff_eq_take.symm

theorem isBlank_isSpace {b : UInt8} (h : isBlank b = true) : isSpace b = true := by
  simp only [isBlank, Bool.or_eq_true, beq_iff_eq] at h
  rcases h with rfl | rfl <;> decide

theorem word_inRow {b : UInt8} (h : isSpace b = false) : inRow b = true := by
  rw [inRow, Bool.and_eq_true, bne_iff_ne, bne_iff_ne]
  constructor <;> rintro rfl <;> cases h

theorem IfName.noBlank (n : IfName) : ∀ b ∈ n.text, isBlank b = false := by
  intro b hb
  rw [← Bool.not_eq_true]
  intro hblank
  have hspace := (n.word b hb).1
  rw [isBlank_isSpace hblank] at hspace
  cases hspace

theorem IfName.inRow (n : IfName) : ∀ b ∈ n.text, Mgt.inRow b = true :=
  fun b hb => word_inRow (n.word b hb).1

theorem IfName.noNul (n : IfName) : 0 ∉ n.text := fun h => (n.word 0 h).2 rfl

theorem IfName.noNewline (n : IfName) : 10 ∉ n.text := by
  intro h
  cases n.inRow 10 h

/-- Only what stands behind an item without blanks is trimmed. -/
theorem rdropWhile_blank {item : Bytes} (hitem : ∀ b ∈ item, isBlank b = false) (x : Bytes) :
    (item ++ x).rdropWhile isBlank = item ++ x.rdropWhile isBlank := by
  induction x using List.reverseRecOn with
  | nil =>
    rw [List.rdropWhile_nil, List.append_nil, List.rdropWhile_eq_self_iff]
    intro hne
    rw [hitem _ (List.getLast_mem hne)]
    exact Bool.false_ne_true
  | append_singleton x b ih =>
    rw [← List.append_assoc, List.rdropWhile_concat, List.rdropWhile_concat]
    split_ifs
    · exact ih
    · exact List.append_assoc item x [b]

section Test
variable {item : Bytes}

theorem inColumn {column : Bytes} (h : ∀ b ∈ column, inRow b = true) (hbar : 124 ∉ column) :
    ∀ b ∈ column, (inRow b && b != 124) = true := by
  intro b hb
  rw [h b hb, Bool.true_and, bne_iff_ne]
  rintro rfl
  exact hbar hb

/-- The walk along a column ends at its bar. -/
theorem column_eq {column t : Bytes} (h : ∀ b ∈ column, inRow b = true) (hbar : 124 ∉ column) :
    (column ++ 124 :: t).takeWhile (fun b => inRow b && b != 124) = column :=
  takeWhile_cut (inColumn h hbar) (by decide) t

/-- A place in a column passes if only blanks follow the item there. -/
theorem matchVlan_column {v t : Bytes} (hitem : ∀ b ∈ item, isBlank b = false) (h0 : 0 ∉ v)
    (hp : item <+: v) (hrow : ∀ b ∈ v, inRow b = true) (hbar : 124 ∉ v) :
    snsdMatchVlan (v ++ 124 :: t) item =
      decide (v.length < SNSD_CFG_NAME_MAX_LEN ∧ (v.drop item.length).all isBlank) := by
  obtain ⟨x, rfl⟩ := hp
  have hi0 : 0 ∉ item := fun h => h0 (List.mem_append_left x h)
  have hget : (item ++ x ++ 124 :: t)[(item ++ x).length]? = some 124 := by simp
  have htrim : (item ++ x).rdropWhile isBlank <+: item ↔ x.all isBlank = true := by
    rw [rdropWhile_blank hitem, List.all_eq_true, ← List.rdropWhile_eq_nil_iff]
    constructor
    · intro h
      have hlen := h.length_le
      rw [List.length_append] at hlen
      exact List.length_eq_zero_iff.mp (by omega)
    · intro h
      rw [h, List.append_nil]
  have h0' : 0 ∉ (item ++ x).rdropWhile isBlank :=
    fun h => h0 ((List.rdropWhile_prefix isBlank _).subset h)
  rw [snsdMatchVlan, column_eq hrow hbar, List.drop_left]
  by_cases hlen : (item ++ x).length < SNSD_CFG_NAME_MAX_LEN
  · rw [if_pos ⟨hlen, hget⟩, Bool.eq_iff_iff, strncmpEq_noNul h0' hi0, htrim, decide_eq_true_iff]
    exact (and_iff_right hlen).symm
  · rw [if_neg (fun h => hlen h.1)]
    exact (decide_eq_false (fun h => hlen h.1)).symm

/-- A place in the last column does not pass. -/
theorem matchVlan_last {v t : Bytes} (hrow : ∀ b ∈ v, inRow b = true) (hbar : 124 ∉ v) :
    snsdMatchVlan (v ++ 10 :: t) item = false := by
  have hcol : (v ++ 10 :: t).takeWhile (fun b => inRow b && b != 124) = v :=
    takeWhile_cut (inColumn hrow hbar) (by decide) t
  rw [snsdMatchVlan, hcol, if_neg]
  intro h
  have hget : (v ++ 10 :: t)[v.length]? = some 10 := by simp
  rw [hget] at h
  exact absurd h.2 (by decide)

/-- An item with a bar in it passes wherever it stands. -/
theorem matchVlan_bar {v : Bytes} (n : IfName) (hbar : 124 ∈ n.text) (hp : n.text <+: v) :
    snsdMatchVlan v n.text = true := by
  obtain ⟨x, rfl⟩ := hp
  obtain ⟨column, rest, htext, hcol⟩ := List.eq_append_cons_of_mem hbar
  have hmem : ∀ b ∈ column, b ∈ n.text := by
    intro b hb
    rw [htext]
    exact List.mem_append_left _ hb
  have hlen : column.length < SNSD_CFG_NAME_MAX_LEN := by
    have hfits := n.fits
    rw [htext, List.length_append] at hfits
    exact lt_of_le_of_lt (Nat.le_add_right _ _) (hfits.trans (by decide))
  have htrim : column.rdropWhile isBlank = column := by
    have h := rdropWhile_blank (fun b hb => n.noBlank b (hmem b hb)) []
    rwa [List.rdropWhile_nil, List.append_nil] at h
  have heq : n.text ++ x = column ++ 124 :: (rest ++ x) := by
    rw [htext, List.append_assoc, List.cons_append]
  have hget : (column ++ 124 :: (rest ++ x))[column.length]? = some 124 := by simp
  rw [heq, snsdMatchVlan, column_eq (fun b hb => n.inRow b (hmem b hb)) hcol, if_pos ⟨hlen, hget⟩,
    htrim, strncmpEq_noNul (fun h => n.noNul (hmem 0 h)) n.noNul, htext]
  exact List.prefix_append column _

end Test

/-! The bytes of a row. -/

theorem blank_plain {b : UInt8} (h : isBlank b = true) : inRow b = true ∧ b ≠ 0 ∧ b ≠ 124 := by
  simp only [isBlank, Bool.or_eq_true, beq_iff_eq] at h
  rcases h with rfl | rfl <;> decide

theorem digit_plain {n : ℕ} {b : UInt8} (h : b ∈ decimal n) : inRow b = true ∧ b ≠ 0 := by
  obtain ⟨hl, -⟩ := decimal_digit h
  rw [inRow, Bool.and_eq_true, bne_iff_ne, bne_iff_ne]
  refine ⟨⟨?_, ?_⟩, ?_⟩ <;> rintro rfl <;> exact absurd hl (by decide)

namespace VlanRow

theorem gap_plain (r : VlanRow) (i : Fin 6) : ∀ b ∈ r.gap i, inRow b = true ∧ b ≠ 0 := by
  intro b hb
  have h := blank_plain (r.gap_blank i b hb)
  exact ⟨h.1, h.2.1⟩

theorem tail_plain (r : VlanRow) : ∀ b ∈ r.tail, inRow b = true ∧ b ≠ 0 := by
  intro b hb
  rw [tail] at hb
  simp only [List.mem_append, List.mem_cons] at hb
  rcases hb with ((hb | hb) | hb) | rfl | (hb | hb) | hb
  · exact r.gap_plain 2 b hb
  · exact digit_plain hb
  · exact r.gap_plain 3 b hb
  · decide
  · exact r.gap_plain 4 b hb
  · exact ⟨word_inRow (r.device_word b hb).1, (r.device_word b hb).2⟩
  · exact r.gap_plain 5 b hb

theorem text_plain (r : VlanRow) : ∀ b ∈ r.text, inRow b = true ∧ b ≠ 0 := by
  intro b hb
  rw [text] at hb
  simp only [List.mem_append, List.mem_cons] at hb
  rcases hb with hb | (hb | hb) | rfl | hb
  · exact r.gap_plain 0 b hb
  · exact ⟨(r.name_word b hb).2.1, (r.name_word b hb).2.2.2⟩
  · exact r.gap_plain 1 b hb
  · decide
  · exact r.tail_plain b hb

end VlanRow

/-! The search in a line. -/

section Line
variable (n : IfName)

/-- A line is left behind where the search does not end in it. -/
theorem line_search (line rest : Bytes) :
    search n.text (snsdMatchVlan · n.text) (line ++ 10 :: rest) =
      (search n.text (fun v => snsdMatchVlan (v ++ 10 :: rest) n.text) line).or
        ((search n.text (snsdMatchVlan · n.text) rest).map (·+(line.length+1))) :=
  search_sep n.ne n.noNewline

theorem header_search {line rest : Bytes} (h : ¬ n.text <:+: line) :
    search n.text (snsdMatchVlan · n.text) (line ++ 10 :: rest) =
      (search n.text (snsdMatchVlan · n.text) rest).map (·+(line.length+1)) := by
  rw [line_search, search_absent h, Option.none_or]

/-- The search ends in a line where it does in one of the columns with a bar behind. -/
theorem line_isSome_iff (hbar : 124 ∉ n.text) (rest : Bytes) {line : Bytes}
    (hline : ∀ b ∈ line, inRow b = true ∧ b ≠ 0) :
    (search n.text (fun v => snsdMatchVlan (v ++ 10 :: rest) n.text) line).isSome ↔
      ∃ c ∈ (line.splitOn 124).dropLast, ColumnStops n.text c := by
  have hlen : ∀ k (line : Bytes), line.length < k → (∀ b ∈ line, inRow b = true ∧ b ≠ 0) →
      ((search n.text (fun v => snsdMatchVlan (v ++ 10 :: rest) n.text) line).isSome ↔
        ∃ c ∈ (line.splitOn 124).dropLast, ColumnStops n.text c) := by
    intro k
    induction k with
    | zero => exact fun line h => absurd h (Nat.not_lt_zero _)
    | succ k ih =>
      intro line hk hline
      by_cases hmem : 124 ∈ line
      · obtain ⟨column, tail, rfl, hcol⟩ := List.eq_append_cons_of_mem hmem
        have htail := ih tail (by
          rw [List.length_append, List.length_cons] at hk
          omega) (fun b hb => hline b (by simp [hb]))
        have htest : search n.text (fun v => snsdMatchVlan (v ++ 124 :: tail ++ 10 :: rest) n.text)
              column = search n.text (fun v => v.length < SNSD_CFG_NAME_MAX_LEN ∧
              (v.drop n.text.length).all isBlank) column := by
          apply search_congr
          intro v hp hv
          have hsub : ∀ b ∈ v, inRow b = true ∧ b ≠ 0 :=
            fun b hb => hline b (List.mem_append_left _ (hv.subset hb))
          rw [List.append_assoc, List.cons_append]
          exact matchVlan_column n.noBlank (fun h => (hsub 0 h).2 rfl) hp
            (fun b hb => (hsub b hb).1) (fun h => hcol (hv.subset h))
        have hne : tail.splitOn 124 ≠ [] := List.splitOn_ne_nil 124 tail
        rw [search_sep n.ne hbar, htest, List.splitOn_append_cons_self,
          List.splitOn_eq_singleton hcol, List.singleton_append, List.dropLast_cons_of_ne_nil hne,
          Option.isSome_or, Bool.or_eq_true, Option.isSome_map, htail, List.exists_mem_cons_iff]
        exact Iff.rfl
      · rw [search_eq_none, List.splitOn_eq_singleton hmem]
        · simp
        · intro v _ hv
          exact matchVlan_last (fun b hb => (hline b (hv.subset hb)).1) fun h => hmem (hv.subset h)
  exact hlen (line.length+1) line (Nat.lt_succ_self _) hline

/-! The search in a row. -/

theorem stops_iff (r : VlanRow) (rest : Bytes) : r.Stops n.text ↔
    (search n.text (fun v => snsdMatchVlan (v ++ 10 :: rest) n.text) r.text).isSome := by
  rw [VlanRow.Stops]
  split
  · next hbar =>
    have hpass : ∀ v, n.text <+: v → v <:+ r.text →
        snsdMatchVlan (v ++ 10 :: rest) n.text = true :=
      fun v hp _ => matchVlan_bar n hbar (hp.trans (List.prefix_append v _))
    rw [← Option.ne_none_iff_isSome, Ne, search_eq_none_iff n.ne hpass, not_not]
  · next hbar => exact (line_isSome_iff n hbar rest r.text_plain).symm

theorem row_search_stops {r : VlanRow} (h : r.Stops n.text) (rest : Bytes) :
    ∃ i < r.text.length,
      search n.text (snsdMatchVlan · n.text) (r.text ++ 10 :: rest) = some i := by
  obtain ⟨i, hi⟩ := Option.isSome_iff_exists.mp ((stops_iff n r rest).mp h)
  refine ⟨i, search_lt n.ne hi, ?_⟩
  rw [line_search, hi, Option.some_or]

theorem row_search_passes {r : VlanRow} (h : ¬ r.Stops n.text) (rest : Bytes) :
    search n.text (snsdMatchVlan · n.text) (r.text ++ 10 :: rest) =
      (search n.text (snsdMatchVlan · n.text) rest).map (·+(r.text.length+1)) := by
  rw [stops_iff n r rest, Bool.not_eq_true, Option.isSome_eq_false_iff,
    Option.isNone_iff_eq_none] at h
  rw [line_search, h, Option.none_or]

/-- In the row of the name itself the search ends at the name, if its column fits. -/
theorem own_search {r : VlanRow} (hname : r.name = n.text) (rest : Bytes) :
    search n.text (snsdMatchVlan · n.text) (r.text ++ 10 :: rest) = some (r.gap 0).length ↔
      r.name.length+(r.gap 1).length < SNSD_CFG_NAME_MAX_LEN := by
  have hgap : ∀ i < (r.gap 0).length, ¬ n.text <+: (r.text ++ 10 :: rest).drop i := by
    intro i hi hp
    have hget : (r.text ++ 10 :: rest).drop i =
        (r.gap 0)[i] :: (r.text ++ 10 :: rest).drop (i+1) := by
      rw [List.drop_eq_getElem_cons (by rw [List.length_append, VlanRow.text, List.length_append]
                                        omega)]
      congr 1
      simp only [VlanRow.text, List.append_assoc]
      exact List.getElem_append_left hi
    obtain ⟨b, text, htext⟩ := List.exists_cons_of_ne_nil n.ne
    rw [hget, htext] at hp
    obtain ⟨rfl, -⟩ := List.cons_prefix_cons.mp hp
    have hblank := r.gap_blank 0 _ (List.getElem_mem hi)
    rw [n.noBlank _ (by rw [htext]; exact List.mem_cons_self)] at hblank
    cases hblank
  have hdrop : (r.text ++ 10 :: rest).drop (r.gap 0).length =
      r.name ++ r.gap 1 ++ 124 :: (r.tail ++ 10 :: rest) := by
    rw [VlanRow.text, List.append_assoc, List.drop_left, List.append_assoc, List.cons_append]
  have htest : snsdMatchVlan (r.name ++ r.gap 1 ++ 124 :: (r.tail ++ 10 :: rest)) n.text =
      decide (r.name.length+(r.gap 1).length < SNSD_CFG_NAME_MAX_LEN) := by
    have hplain : ∀ b ∈ r.name ++ r.gap 1, inRow b = true ∧ b ≠ 0 ∧ b ≠ 124 := by
      intro b hb
      rcases List.mem_append.mp hb with hb | hb
      · obtain ⟨-, hrow, hbar, h0⟩ := r.name_word b hb
        exact ⟨hrow, h0, hbar⟩
      · exact blank_plain (r.gap_blank 1 b hb)
    have hblank : (r.gap 1).all isBlank = true := List.all_eq_true.mpr (r.gap_blank 1)
    rw [matchVlan_column n.noBlank (fun h => (hplain 0 h).2.1 rfl)
      (by rw [hname]; exact List.prefix_append _ _) (fun b hb => (hplain b hb).1)
      (fun h => (hplain 124 h).2.2 rfl), ← hname, List.drop_left, List.length_append]
    simp only [hblank, and_true]
  have hp : n.text <+: r.name ++ r.gap 1 ++ 124 :: (r.tail ++ 10 :: rest) := by
    rw [hname, List.append_assoc]
    exact List.prefix_append _ _
  rw [search_drop hgap, hdrop]
  by_cases hfit : r.name.length+(r.gap 1).length < SNSD_CFG_NAME_MAX_LEN
  · rw [search_hit n.ne hp (by rw [htest, decide_eq_true hfit])]
    simpa using hfit
  · rw [search_pass n.ne hp (by rw [htest, decide_eq_false hfit])]
    refine iff_of_false ?_ hfit
    intro h
    rw [Option.map_map] at h
    obtain ⟨i, -, hi⟩ := Option.map_eq_some_iff.mp h
    have hpos := List.length_pos_iff.mpr n.ne
    simp only [Function.comp_apply] at hi
    omega

/-! The search in the table. -/

theorem vlanText_cons (line : Bytes) (lines : List Bytes) (rows : List VlanRow) :
    vlanText (line :: lines) rows = line ++ 10 :: vlanText lines rows := by
  rw [vlanText, List.cons_append, List.flatMap_cons, List.append_assoc, List.singleton_append,
    vlanText]

theorem vlanText_row (r : VlanRow) (rows : List VlanRow) :
    vlanText [] (r :: rows) = r.text ++ 10 :: vlanText [] rows := vlanText_cons r.text [] rows

theorem map_add_inj {k : ℕ} {a b : Option ℕ} : a.map (·+k) = b.map (·+k) ↔ a = b :=
  (Option.map_injective (add_left_injective k)).eq_iff

theorem rows_search {rows : List VlanRow} (hdistinct : (rows.map (·.name)).Nodup) :
    search n.text (snsdMatchVlan · n.text) (vlanText [] rows) = namePlace n.text rows ↔
      ClearTo n.text rows := by
  induction rows with
  | nil => exact iff_of_true rfl ⟨by simp, by simp⟩
  | cons r rows ih =>
    obtain ⟨hnew, hdistinct⟩ := List.nodup_cons.mp hdistinct
    rw [vlanText_row, namePlace, ClearTo]
    by_cases hname : r.name = n.text
    · rw [if_pos hname, own_search n hname, List.takeWhile_cons_of_neg (by simp [hname])]
      constructor
      · intro hfit
        refine ⟨by simp, ?_⟩
        intro r' hr' hname'
        rcases List.mem_cons.mp hr' with rfl | hr'
        · exact hfit
        · exact absurd (List.mem_map.mpr ⟨r', hr', hname'.trans hname.symm⟩) hnew
      · intro h
        exact h.2 r List.mem_cons_self hname
    · rw [if_neg hname, List.takeWhile_cons_of_pos (by simp [hname])]
      by_cases hstop : r.Stops n.text
      · obtain ⟨i, hi, hsearch⟩ := row_search_stops n hstop (vlanText [] rows)
        refine iff_of_false ?_ fun h => h.1 r List.mem_cons_self hstop
        intro h
        rw [hsearch] at h
        obtain ⟨j, -, hj⟩ := Option.map_eq_some_iff.mp h.symm
        omega
      · rw [row_search_passes n hstop, map_add_inj, ih hdistinct, ClearTo]
        simp only [List.forall_mem_cons, hstop, hname, not_false_eq_true, false_implies, true_and]

/-- The place of the name behind the lines of the header. -/
theorem table_search {header : List Bytes} {rows : List VlanRow}
    (hheader : ∀ line ∈ header, ¬ n.text <:+: line) (hdistinct : (rows.map (·.name)).Nodup) :
    search n.text (snsdMatchVlan · n.text) (vlanText header rows) =
        (namePlace n.text rows).map (·+(vlanText header []).length) ↔ ClearTo n.text rows := by
  induction header with
  | nil =>
    rw [← rows_search n hdistinct]
    have hzero : (namePlace n.text rows).map (·+(vlanText [] []).length) = namePlace n.text rows :=
      Option.map_id_apply
    rw [hzero]
  | cons line header ih =>
    have hlength : line.length+((10 :: vlanText header []).length) =
        (vlanText header []).length+(line.length+1) := by
      rw [List.length_cons]
      omega
    have hshift : (namePlace n.text rows).map (·+((vlanText header []).length+(line.length+1))) =
        ((namePlace n.text rows).map (·+(vlanText header []).length)).map (·+(line.length+1)) := by
      rw [Option.map_map]
      congr 1
      funext i
      exact (Nat.add_assoc i _ _).symm
    rw [vlanText_cons, header_search n (hheader line List.mem_cons_self), vlanText_cons,
      ← ih fun l hl => hheader l (List.mem_cons_of_mem _ hl), List.length_append, hlength, hshift,
      map_add_inj]

end Line

/-! The loop over the text is the search. -/

theorem infix_drop {w l : Bytes} (h : w <:+: l) : ∃ i ≤ l.length, w <+: l.drop i := by
  obtain ⟨a, b, rfl⟩ := h
  refine ⟨a.length, ?_, b, ?_⟩
  · rw [List.length_append, List.length_append]
    omega
  · rw [List.append_assoc, List.drop_left]

theorem findVlanStart_eq (n : IfName) {vlan : Bytes} (h0 : 0 ∉ vlan) (fuel next : ℕ)
    (hfuel : vlan.length-next < fuel) :
    snsdFindVlanStart n.text vlan fuel next =
      .ok ((search n.text (snsdMatchVlan · n.text) (vlan.drop next)).map (·+next)) := by
  induction fuel generalizing next with
  | zero => exact absurd hfuel (Nat.not_lt_zero _)
  | succ fuel ih =>
    rw [snsdFindVlanStart]
    by_cases hnext : next < vlan.length
    · rw [if_pos hnext]
      have h0' : 0 ∉ vlan.drop next := fun h => h0 (List.mem_of_mem_drop h)
      cases hstr : strstr (vlan.drop next) n.text with
      | none =>
        have habsent : ¬ n.text <:+: vlan.drop next := by
          intro h
          obtain ⟨i, hi, hp⟩ := infix_drop h
          rw [strstr, cstr_of_noNul h0', List.find?_range_eq_none] at hstr
          have hno := hstr i (Nat.lt_succ_of_le hi)
          rw [List.isPrefixOf_iff_prefix.mpr hp] at hno
          cases hno
        rw [search_absent habsent]
        rfl
      | some off =>
        rw [strstr, cstr_of_noNul h0', List.find?_range_eq_some] at hstr
        obtain ⟨hp, -, hbefore⟩ := hstr
        have hbefore : ∀ i < off, ¬ n.text <+: (vlan.drop next).drop i := by
          intro i hi hpi
          have hno := hbefore i hi
          rw [List.isPrefixOf_iff_prefix.mpr hpi] at hno
          cases hno
        have hp := List.isPrefixOf_iff_prefix.mp hp
        rw [search_drop hbefore]
        rw [List.drop_drop] at hp ⊢
        dsimp only
        cases hmatch : snsdMatchVlan (vlan.drop (next+off)) n.text with
        | true =>
          rw [if_pos rfl, search_hit n.ne hp hmatch, Option.map_some, Option.map_some, Nat.zero_add,
            Nat.add_comm]
        | false =>
          have hpos := List.length_pos_iff.mpr n.ne
          rw [if_neg Bool.false_ne_true, ih _ (by omega), search_pass n.ne hp hmatch,
            List.drop_drop, Option.map_map, Option.map_map]
          congr 2
          funext i
          simp only [Function.comp_apply]
          omega
    · rw [if_neg hnext, List.drop_eq_nil_of_le (Nat.le_of_not_lt hnext)]
      rfl

/-! What is read from the row of the name. -/

theorem namePlace_none {item : Bytes} {rows : List VlanRow} (h : ∀ r ∈ rows, r.name ≠ item) :
    namePlace item rows = none := by
  induction rows with
  | nil => rfl
  | cons r rows ih =>
    rw [namePlace, if_neg (h r List.mem_cons_self), ih fun r' hr' => h r' (List.mem_cons_of_mem _ hr')]
    rfl

theorem namePlace_some {r : VlanRow} {rows : List VlanRow} (hr : r ∈ rows)
    (hdistinct : (rows.map (·.name)).Nodup) : ∃ i rest, namePlace r.name rows = some i ∧
      (vlanText [] rows).drop i = r.name ++ r.gap 1 ++ 124 :: (r.tail ++ 10 :: rest) := by
  induction rows with
  | nil => cases hr
  | cons r' rows ih =>
    obtain ⟨hnew, hdistinct⟩ := List.nodup_cons.mp hdistinct
    rw [namePlace, vlanText_row]
    rcases List.mem_cons.mp hr with rfl | hr
    · refine ⟨_, vlanText [] rows, if_pos rfl, ?_⟩
      rw [VlanRow.text, List.append_assoc, List.drop_left, List.append_assoc, List.cons_append]
    · obtain ⟨i, rest, hplace, hdrop⟩ := ih hr hdistinct
      have hname : r'.name ≠ r.name := fun h => hnew (List.mem_map.mpr ⟨r, hr, h.symm⟩)
      refine ⟨i+(r'.text.length+1), rest, by rw [if_neg hname, hplace]; rfl, ?_⟩
      rw [← hdrop, Nat.add_comm, ← List.drop_drop, ← List.drop_drop, List.drop_left]
      rfl

theorem vlanText_header (header : List Bytes) (rows : List VlanRow) :
    vlanText header rows = vlanText header [] ++ vlanText [] rows := by
  simp only [vlanText, List.flatMap_append, List.map_nil, List.append_nil, List.nil_append]

/-! What is read behind the name of a row. -/

theorem isDigit_decimal {n : ℕ} : ∀ b ∈ decimal n, isDigit b = true := decimal_digits n

theorem isDigit_blank {b : UInt8} (h : isBlank b = true) : isDigit b = false := by
  simp only [isBlank, Bool.or_eq_true, beq_iff_eq] at h
  rcases h with rfl | rfl <;> decide

/-- A gap ends a number, and so does the bar behind it. -/
theorem digits_gap {gap t : Bytes} (h : ∀ b ∈ gap, isBlank b = true) (n : ℕ) :
    (decimal n ++ (gap ++ 124 :: t)).takeWhile isDigit = decimal n := by
  rcases gap with _ | ⟨b, gap⟩
  · exact takeWhile_cut isDigit_decimal (by decide) t
  · exact takeWhile_cut isDigit_decimal (isDigit_blank (h b List.mem_cons_self)) _

/-- What is skipped before the number of a row: the bar and a gap. -/
theorem skip_gap {gap t : Bytes} (h : ∀ b ∈ gap, isBlank b = true) (n : ℕ) :
    (124 :: (gap ++ (decimal n ++ t))).takeWhile (!isDigit ·) = 124 :: gap := by
  obtain ⟨d, ds, hd⟩ := List.exists_cons_of_ne_nil (decimal_ne_nil n)
  have hdigit := isDigit_decimal (n := n) d (by rw [hd]; exact List.mem_cons_self)
  have hgap : ∀ b ∈ 124 :: gap, (!isDigit b) = true := by
    intro b hb
    rcases List.mem_cons.mp hb with rfl | hb
    · decide
    · rw [isDigit_blank (h b hb)]
      rfl
  rw [hd]
  exact takeWhile_cut (a := 124 :: gap) hgap (by rw [hdigit]; rfl) _

/-- A word between gaps, the second of which ends the line. -/
theorem word_gaps {gap gap' word t : Bytes} (h : ∀ b ∈ gap, isBlank b = true)
    (h' : ∀ b ∈ gap', isBlank b = true) (hne : word ≠ []) (hword : ∀ b ∈ word, isSpace b = false) :
    ((gap ++ (word ++ (gap' ++ 10 :: t))).dropWhile isBlank).takeWhile (!isSpace ·) = word := by
  obtain ⟨b, rest, rfl⟩ := List.exists_cons_of_ne_nil hne
  have hb : isBlank b = false := by
    rw [← Bool.not_eq_true]
    intro hblank
    have hspace := hword b List.mem_cons_self
    rw [isBlank_isSpace hblank] at hspace
    cases hspace
  have hpass : ∀ x ∈ b :: rest, (!isSpace x) = true := by
    intro x hx
    rw [hword x hx]
    rfl
  rw [List.dropWhile_append_of_pos h, List.cons_append, List.dropWhile_cons_of_neg (by simp [hb]),
    ← List.cons_append]
  rcases gap' with _ | ⟨x, gap'⟩
  · exact takeWhile_cut hpass (by decide) t
  · refine takeWhile_cut hpass ?_ _
    rw [isBlank_isSpace (h' x List.mem_cons_self)]
    rfl

theorem atoi_id {n : ℕ} (h : n ≤ 4094) : (Int16.ofInt (atoi (decimal n)).toInt).toInt = n := by
  have hatoi : (atoi (decimal n)).toInt = n := by
    rw [(atoi_decimal (by omega)).1]
    exact Int32.toInt_ofInt_of_le (by omega) (by omega)
  rw [hatoi]
  exact Int16.toInt_ofInt_of_le (by omega) (by omega)

/-- From the start of a name in its column the id and the device of its row are read. -/
theorem fillVlan_at {name vlan rest : Bytes} {offset : ℕ} (r : VlanRow)
    (hfind : snsdFindVlanStart (cstr name) vlan (vlan.length+1) 0 = .ok (some offset))
    (hdrop : vlan.drop offset = r.name ++ r.gap 1 ++ 124 :: (r.tail ++ 10 :: rest)) :
    ∃ id pos, snsdFillVlan name vlan = .ok (id, pos) ∧ id.toInt = r.id ∧
      snsdGetPhyIfname vlan pos = some r.device := by
  have hcolumn : ∀ b ∈ r.name ++ r.gap 1, (b != 124) = true := by
    intro b hb
    rw [bne_iff_ne]
    rcases List.mem_append.mp hb with hb | hb
    · exact (r.name_word b hb).2.2.1
    · exact (blank_plain (r.gap_blank 1 b hb)).2.2
  have hrow : (vlan.drop offset).takeWhile inRow = r.name ++ r.gap 1 ++ 124 :: r.tail := by
    rw [hdrop, ← List.cons_append, ← List.append_assoc]
    refine takeWhile_cut ?_ (by decide) rest
    intro b hb
    exact (r.text_plain b (List.mem_append_right _ hb)).1
  have hcol : (r.name ++ r.gap 1 ++ 124 :: r.tail).takeWhile (· != 124) = r.name ++ r.gap 1 :=
    takeWhile_cut hcolumn (by decide) _
  -- behind the number: the third gap and the column of the device
  let last := r.gap 4 ++ (r.device ++ (r.gap 5 ++ 10 :: rest))
  have htail : r.tail ++ 10 :: rest = r.gap 2 ++ (decimal r.id ++ (r.gap 3 ++ 124 :: last)) := by
    simp only [VlanRow.tail, last, List.append_assoc, List.cons_append]
  have hrest : vlan.drop (offset+(r.name ++ r.gap 1).length) =
      124 :: (r.gap 2 ++ (decimal r.id ++ (r.gap 3 ++ 124 :: last))) := by
    rw [← List.drop_drop, hdrop, List.drop_left, htail]
  have hbehind : (124 :: (r.gap 2 ++ (decimal r.id ++ (r.gap 3 ++ 124 :: last)))).drop
      (124 :: r.gap 2).length = decimal r.id ++ (r.gap 3 ++ 124 :: last) := by
    rw [← List.cons_append, List.drop_left]
  have hfew : (decimal r.id).length ≤ SNSD_CFG_NAME_MAX_LEN := by
    have hid := r.id_le
    exact (decimal_length_le (k := 4) (by decide) (by omega)).trans (by decide)
  have hne : (r.name ++ r.gap 1).length ≠ (r.name ++ r.gap 1 ++ 124 :: r.tail).length := by
    rw [Ne, List.length_append, List.length_append, List.length_append, List.length_cons]
    omega
  refine ⟨_, offset+(r.name ++ r.gap 1).length+(124 :: r.gap 2).length+(decimal r.id).length, ?_,
    atoi_id r.id_le, ?_⟩
  · rw [snsdFillVlan, hfind]
    simp only [ok_bind]
    rw [hrow, hcol, if_neg hne, hrest, skip_gap (r.gap_blank 2), hbehind,
      digits_gap (r.gap_blank 3), List.take_of_length_le hfew, if_neg (decimal_ne_nil r.id)]
    rfl
  · have hpos : vlan.drop (offset+(r.name ++ r.gap 1).length+(124 :: r.gap 2).length+
        (decimal r.id).length) = r.gap 3 ++ 124 :: last := by
      rw [← List.drop_drop, ← List.drop_drop, hrest, hbehind, List.drop_left]
    have hrow' : (r.gap 3 ++ 124 :: last).takeWhile inRow =
        r.gap 3 ++ 124 :: (r.gap 4 ++ r.device ++ r.gap 5) := by
      have hline : r.gap 3 ++ 124 :: last =
          r.gap 3 ++ 124 :: (r.gap 4 ++ r.device ++ r.gap 5) ++ 10 :: rest := by
        simp only [last, List.append_assoc, List.cons_append]
      rw [hline]
      refine takeWhile_cut ?_ (by decide) rest
      intro b hb
      refine (r.tail_plain b ?_).1
      rw [VlanRow.tail, List.append_assoc]
      exact List.mem_append_right _ hb
    have hcol' : (r.gap 3 ++ 124 :: (r.gap 4 ++ r.device ++ r.gap 5)).takeWhile (· != 124) =
        r.gap 3 := by
      refine takeWhile_cut ?_ (by decide) _
      intro b hb
      rw [bne_iff_ne]
      exact (blank_plain (r.gap_blank 3 b hb)).2.2
    have hne' : (r.gap 3).length ≠
        (r.gap 3 ++ 124 :: (r.gap 4 ++ r.device ++ r.gap 5)).length := by
      rw [Ne, List.length_append, List.length_cons]
      omega
    have hlast : (r.gap 3 ++ 124 :: last).drop ((r.gap 3).length+1) = last := by
      rw [← List.drop_drop, List.drop_left]
      rfl
    have hword : (last.dropWhile isBlank).takeWhile (!isSpace ·) = r.device :=
      word_gaps (r.gap_blank 4) (r.gap_blank 5) r.device_ne fun b hb => (r.device_word b hb).1
    rw [snsdGetPhyIfname, hpos, hrow', hcol', if_neg hne', Nat.add_assoc, ← List.drop_drop, hpos,
      hlast]
    dsimp only
    rw [hword, List.take_of_length_le (Nat.le_of_lt r.device_fits), if_neg r.device_ne]

theorem vlanText_noNul {header : List Bytes} (h : ∀ line ∈ header, 0 ∉ line)
    (rows : List VlanRow) : 0 ∉ vlanText header rows := by
  intro h0
  obtain ⟨line, hline, h0⟩ := List.mem_flatMap.mp h0
  rcases List.mem_append.mp h0 with h0 | h0
  · rcases List.mem_append.mp hline with hline | hline
    · exact h line hline h0
    · obtain ⟨r, -, rfl⟩ := List.mem_map.mp hline
      exact (r.text_plain 0 h0).2 rfl
  · cases List.mem_singleton.mp h0

/-- The lookup goes by the row of the name, from the place of the name on, exactly if
no place before it ends the search. -/
theorem vlan_by_name_iff {header : List Bytes} {rows : List VlanRow} {name : Bytes} (n : IfName)
    (hname : cstr name = n.text) (hheader : ∀ line ∈ header, 0 ∉ line ∧ ¬ n.text <:+: line)
    (hdistinct : (rows.map (·.name)).Nodup) :
    (snsdFindVlanStart (cstr name) (vlanText header rows) ((vlanText header rows).length+1) 0 =
          .ok ((namePlace n.text rows).map (·+(vlanText header []).length)) ∧
        VlanFound name (vlanText header rows) rows) ↔
      ClearTo n.text rows := by
  have h0 := vlanText_noNul (fun line hline => (hheader line hline).1) rows
  have hsearch := table_search n (fun line hline => (hheader line hline).2) hdistinct
  have hfind : snsdFindVlanStart (cstr name) (vlanText header rows)
      ((vlanText header rows).length+1) 0 =
      .ok (search n.text (snsdMatchVlan · n.text) (vlanText header rows)) := by
    rw [hname, findVlanStart_eq n h0 _ _ (by omega), List.drop_zero]
    congr 1
    exact Option.map_id_apply
  constructor
  · intro h
    rw [hfind] at h
    exact hsearch.mp (Except.ok.inj h.1)
  · intro hclear
    have hplace := hsearch.mpr hclear
    rw [hplace] at hfind
    refine ⟨hfind, ?_, ?_⟩
    · intro r hr hrname
      obtain ⟨i, rest, hi, hdrop⟩ := namePlace_some hr hdistinct
      rw [hrname.trans hname] at hi
      rw [hi, Option.map_some] at hfind
      have hplace : (vlanText header rows).drop (i+(vlanText header []).length) =
          r.name ++ r.gap 1 ++ 124 :: (r.tail ++ 10 :: rest) := by
        rw [vlanText_header header rows, Nat.add_comm, ← List.drop_drop, List.drop_left]
        exact hdrop
      exact fillVlan_at r hfind hplace
    · intro hnone
      rw [hname] at hnone
      rw [namePlace_none hnone] at hfind
      refine ⟨0, ?_⟩
      rw [snsdFillVlan, hfind]
      rfl

/-- One blank between the columns. -/
def sampleGap (i : Fin 6) : Bytes := if i = 0 ∨ i = 5 then [] else [32]

theorem sampleGap_blank (i : Fin 6) : ∀ b ∈ sampleGap i, isBlank b = true := by
  unfold sampleGap
  split
  · exact fun b hb => absurd hb List.not_mem_nil
  · intro b hb
    rw [List.mem_singleton.mp hb]
    decide

/-- `xeth0 | 5 | e` -/
def sampleRow₁ : VlanRow where
  name := ascii "xeth0"
  id := 5
  device := ascii "e"
  gap := sampleGap
  name_fits := by decide
  name_word := forall_mem_of_all (by decide)
  id_le := by decide
  device_ne := by decide
  device_fits := by decide
  device_word := forall_mem_of_all (by decide)
  gap_blank := sampleGap_blank

/-- `eth0 | 6 | f` -/
def sampleRow₂ : VlanRow where
  name := ascii "eth0"
  id := 6
  device := ascii "f"
  gap := sampleGap
  name_fits := by decide
  name_word := forall_mem_of_all (by decide)
  id_le := by decide
  device_ne := by decide
  device_fits := by decide
  device_word := forall_mem_of_all (by decide)
  gap_blank := sampleGap_blank

def sampleName : IfName where
  text := ascii "eth0"
  ne := by decide
  fits := by decide
  word := forall_mem_of_all (by decide)

def sampleHeader : List Bytes := [ascii "VLAN Dev name | VLAN ID", ascii "Name-Type: VLAN_NAME_TYPE"]

/-- With the shorter name first, both names are found. -/
theorem vlan_by_name_sample :
    (snsdFindVlanStart (cstr sampleName.text)
          (vlanText sampleHeader [sampleRow₂, sampleRow₁])
          ((vlanText sampleHeader [sampleRow₂, sampleRow₁]).length+1) 0 =
        .ok ((namePlace sampleName.text [sampleRow₂, sampleRow₁]).map
          (·+(vlanText sampleHeader []).length)) ∧
      VlanFound sampleName.text (vlanText sampleHeader [sampleRow₂, sampleRow₁])
        [sampleRow₂, sampleRow₁]) ↔ ClearTo sampleName.text [sampleRow₂, sampleRow₁] :=
  vlan_by_name_iff sampleName (by decide) (by decide) (by decide)

/-- A name that ends in the one looked for stands before it. -/
theorem vlan_suffix_misleads :
    (∀ line ∈ sampleHeader, 0 ∉ line ∧ ¬ ascii "eth0" <:+: line) ∧
      ([sampleRow₁, sampleRow₂].map (·.name)).Nodup ∧
      ¬ VlanFound (ascii "eth0") (vlanText sampleHeader [sampleRow₁, sampleRow₂])
        [sampleRow₁, sampleRow₂] := by
  refine ⟨by decide, by decide, ?_⟩
  intro h
  have hfive : (snsdFillVlan (ascii "eth0")
      (vlanText sampleHeader [sampleRow₁, sampleRow₂])).toOption.map (·.1) = some 5 := by
    decide +kernel
  obtain ⟨id, pos, hid, hsix, -⟩ := h.1 sampleRow₂ (by simp) (by decide)
  rw [hid] at hfive
  obtain rfl := Option.some.inj hfive
  exact absurd hsix (by decide)

end NvmeSnsd.Mgt
