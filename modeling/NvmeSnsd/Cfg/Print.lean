import NvmeSnsd.Cfg.Pieces

/-! Configuration files as they are written: sections of lines of items, with
spaces around the signs, and what is left of them when the blanks are out. -/
namespace NvmeSnsd.Cfg
open Lib

/-- A character of a key or a value. -/
def isWordByte (b : UInt8) : Bool :=
  !isSpace b && b != 61 && b != 124 && b != 59 && b != 91 && b != 0

/-- A key or a value. -/
structure Word where
  text : Bytes
  ne : text ≠ []
  word : ∀ b ∈ text, isWordByte b = true

/-- An item as it is written: the spaces are counted in the order they stand. -/
structure Item where
  option : Commandline
  dashes : Bool
  value : Word
  before : ℕ
  beforeEq : ℕ
  afterEq : ℕ
  after : ℕ

def spaces (n : ℕ) : Bytes := List.replicate n 32

/-- A key with its leading `--` or without. -/
def keyText (dashes : Bool) (option : Bytes) : Bytes := if dashes then ascii "--" ++ option else option

def Item.key (i : Item) : Bytes := keyText i.dashes i.option.option

def Item.print (i : Item) : Bytes :=
  spaces i.before ++ i.key ++ spaces i.beforeEq ++ 61 :: (spaces i.afterEq ++ i.value.text ++ spaces i.after)

/-- The item without its blanks. -/
def Item.text (i : Item) : Bytes := i.key ++ 61 :: i.value.text

/-- A line of items, or a blank line when there is none. -/
structure Line where
  indent : ℕ
  items : List Item

def Line.print (l : Line) : Bytes :=
  spaces l.indent ++ ([124].intercalate (l.items.map Item.print) ++ [10])

def Line.text (l : Line) : Bytes := [124].intercalate (l.items.map Item.text)

structure Section where
  indent : ℕ
  name : Bytes
  lines : List Line

def Section.print (s : Section) : Bytes :=
  spaces s.indent ++ 91 :: (s.name ++ 93 :: 10 :: s.lines.flatMap Line.print)

/-- The whole file. -/
def printFile (secs : List Section) : Bytes := secs.flatMap Section.print

/-- A key that a table has. -/
def wordOption (c : Commandline) : Bool := c.option != [] && c.option.all isWordByte

/-- An item whose key is a word. -/
def Item.Named (i : Item) : Prop := wordOption i.option = true

/-! The characters. -/

theorem isWordByte_iff {b : UInt8} : isWordByte b = true ↔
    isSpace b = false ∧ b ≠ 61 ∧ b ≠ 124 ∧ b ≠ 59 ∧ b ≠ 91 ∧ b ≠ 0 := by
  simp [isWordByte, and_assoc]

theorem plain_of_isWordByte {b : UInt8} (h : isWordByte b = true) :
    isSpace b = false ∧ isMark b = false := by
  obtain ⟨hs, h61, h124, -, -, -⟩ := isWordByte_iff.mp h
  refine ⟨hs, ?_⟩
  have h10 : b ≠ 10 := by
    rintro rfl
    revert hs
    decide
  have h13 : b ≠ 13 := by
    rintro rfl
    revert hs
    decide
  simp [isMark, h61, h13, h10, h124]

theorem Item.key_word {i : Item} (h : i.Named) : i.key ≠ [] ∧ ∀ b ∈ i.key, isWordByte b = true := by
  simp only [Named, wordOption, Bool.and_eq_true, bne_iff_ne, List.all_eq_true] at h
  obtain ⟨hne, hall⟩ := h
  have hdash : ∀ b ∈ ascii "--", isWordByte b = true := forall_mem_of_all (by decide)
  rw [key, keyText]
  cases i.dashes with
  | false => exact ⟨hne, hall⟩
  | true =>
    refine ⟨List.cons_ne_nil _ _, fun b hb => ?_⟩
    rw [if_pos rfl] at hb
    rcases List.mem_append.mp hb with hb | hb
    · exact hdash b hb
    · exact hall b hb

/-! The blanks. -/

theorem foldl_spaces_true (t : Bytes) (n : ℕ) :
    (spaces n).foldl blankStep (t, true) = (t, true) := by
  induction n with
  | zero => rfl
  | succ n ih =>
    rw [spaces, List.replicate_succ, List.foldl_cons]
    exact ih

theorem foldl_spaces_false (t : Bytes) (n : ℕ) :
    (spaces n).foldl blankStep (t, false) = (t ++ spaces n, false) := by
  induction n generalizing t with
  | zero => exact Prod.ext (List.append_nil t).symm rfl
  | succ n ih =>
    rw [spaces, List.replicate_succ, List.foldl_cons]
    have hstep : blankStep (t, false) 32 = (t ++ [32], false) := rfl
    rw [hstep, ← spaces, ih, List.append_assoc, List.singleton_append]

theorem trimEnd_spaces (t : Bytes) (n : ℕ) : trimEnd (t ++ spaces n) = trimEnd t := by
  induction n with
  | zero => rw [spaces, List.replicate_zero, List.append_nil]
  | succ n ih =>
    rw [spaces, List.replicate_succ', ← List.append_assoc]
    exact (List.rdropWhile_concat_pos _ _ _ (by simp)).trans ih

theorem trimEnd_word {w : Bytes} (hw : ∀ b ∈ w, isSpace b = false) : trimEnd w = w := by
  rcases List.eq_nil_or_concat w with rfl | ⟨v, b, rfl⟩
  · rfl
  · rw [List.concat_eq_append]
    apply trimEnd_append_ne
    rintro rfl
    have h := hw 32 (by simp)
    revert h
    decide

/-- A word with spaces around it, up to the next mark. -/
theorem foldl_token {t w : Bytes} (ht : trimEnd t = t) (hne : w ≠ [])
    (hw : ∀ b ∈ w, isWordByte b = true) (a b : ℕ) {m : UInt8} (hm : isMark m = true) :
    (spaces a ++ w ++ spaces b ++ [m]).foldl blankStep (t, true) = (t ++ w ++ [m], true) := by
  have hplain : ∀ c ∈ w, isSpace c = false ∧ isMark c = false :=
    fun c hc => plain_of_isWordByte (hw c hc)
  have htrim : trimEnd (t ++ w ++ spaces b) = t ++ w := by
    rw [trimEnd_spaces, trimEnd_append ht, trimEnd_word fun c hc => (hplain c hc).1]
  have hstep : blankStep (t ++ w ++ spaces b, false) m = (trimEnd (t ++ w ++ spaces b) ++ [m], true) :=
    if_pos hm
  rw [List.foldl_append, List.foldl_append, List.foldl_append, foldl_spaces_true,
    foldl_blankStep_plain hplain, if_neg hne, foldl_spaces_false, List.foldl_cons, hstep, htrim]
  rfl

/-- An item and the sign behind it. -/
theorem foldl_item {t : Bytes} (ht : trimEnd t = t) {i : Item} (hi : i.Named) {m : UInt8}
    (hm : isMark m = true) :
    (i.print ++ [m]).foldl blankStep (t, true) = (t ++ i.text ++ [m], true) := by
  obtain ⟨hne, hkey⟩ := Item.key_word hi
  have hprint : i.print ++ [m] = (spaces i.before ++ i.key ++ spaces i.beforeEq ++ [61]) ++
      (spaces i.afterEq ++ i.value.text ++ spaces i.after ++ [m]) := by
    simp [Item.print]
  rw [hprint, List.foldl_append, foldl_token ht hne hkey _ _ (by decide),
    foldl_token (trimEnd_append_ne _ (by decide)) i.value.ne i.value.word _ _ hm, Item.text]
  simp

theorem foldl_items {is : List Item} (hi : ∀ i ∈ is, i.Named) {t : Bytes} (ht : trimEnd t = t) :
    ([124].intercalate (is.map Item.print) ++ [10]).foldl blankStep (t, true) =
      (t ++ [124].intercalate (is.map Item.text) ++ [10], true) := by
  induction is generalizing t with
  | nil =>
    have hstep : blankStep (t, true) 10 = (trimEnd t ++ [10], true) := rfl
    rw [List.map_nil, List.map_nil, List.intercalate_nil, List.nil_append, List.append_nil,
      List.foldl_cons, hstep, ht]
    rfl
  | cons i is ih =>
    have hi' := hi i List.mem_cons_self
    rcases is with _ | ⟨j, is⟩
    · rw [List.map_singleton, List.map_singleton, List.intercalate_singleton,
        List.intercalate_singleton, foldl_item ht hi' (by decide)]
    · have hrest := ih (fun k hk => hi k (List.mem_cons_of_mem _ hk))
        (trimEnd_append_ne (t ++ i.text) (b := 124) (by decide))
      rw [List.map_cons, List.map_cons, List.map_cons, List.map_cons, List.intercalate_cons_cons,
        List.intercalate_cons_cons, List.append_assoc, List.foldl_append,
        foldl_item ht hi' (by decide)]
      rw [List.map_cons, List.map_cons] at hrest
      rw [hrest]
      simp

/-- The lines of a section. -/
theorem foldl_lines {ls : List Line} (hl : ∀ l ∈ ls, ∀ i ∈ l.items, i.Named) {t : Bytes}
    (ht : trimEnd t = t) :
    (ls.flatMap Line.print).foldl blankStep (t, true) =
      (t ++ ls.flatMap (fun l => l.text ++ [10]), true) := by
  induction ls generalizing t with
  | nil => exact Prod.ext (List.append_nil t).symm rfl
  | cons l ls ih =>
    rw [List.flatMap_cons, List.flatMap_cons, Line.print, List.foldl_append, List.foldl_append,
      foldl_spaces_true, foldl_items (hl l List.mem_cons_self) ht,
      ih (fun k hk => hl k (List.mem_cons_of_mem _ hk)) (trimEnd_append_ne _ (by decide)), Line.text]
    simp

theorem blankFree_section {ls : List Line} (hl : ∀ l ∈ ls, ∀ i ∈ l.items, i.Named) (n : ℕ) :
    blankFree (10 :: (ls.flatMap Line.print ++ spaces n)) =
      10 :: ls.flatMap (fun l => l.text ++ [10]) := by
  have hstep : blankStep ([], true) 10 = ([10], true) := rfl
  have htrim : trimEnd [10] = [10] := trimEnd_append_ne [] (by decide)
  rw [blankFree, List.foldl_cons, hstep, List.foldl_append, foldl_lines hl htrim, foldl_spaces_true]
  rfl

/-! The lines and the items. -/

theorem Item.text_word {i : Item} (hi : i.Named) : ∀ b ∈ i.text, b = 61 ∨ isWordByte b = true := by
  intro b hb
  rcases List.mem_append.mp hb with hb | hb
  · exact Or.inr ((Item.key_word hi).2 b hb)
  · rcases List.mem_cons.mp hb with rfl | hb
    · exact Or.inl rfl
    · exact Or.inr (i.value.word b hb)

theorem Line.text_word {l : Line} (hl : ∀ i ∈ l.items, i.Named) :
    ∀ b ∈ l.text, b = 61 ∨ b = 124 ∨ isWordByte b = true := by
  intro b hb
  rw [text] at hb
  generalize l.items = is at *
  rcases is with _ | ⟨i, is⟩
  · simp at hb
  rw [List.map_cons, intercalate_cons_flatMap] at hb
  rcases List.mem_append.mp hb with hb | hb
  · exact (Item.text_word (hl i List.mem_cons_self) b hb).imp id Or.inr
  · obtain ⟨x, hx, hb⟩ := List.mem_flatMap.mp hb
    obtain ⟨j, hj, rfl⟩ := List.mem_map.mp hx
    rcases List.mem_cons.mp hb with rfl | hb
    · exact Or.inr (Or.inl rfl)
    · exact (Item.text_word (hl j (List.mem_cons_of_mem _ hj)) b hb).imp id Or.inr

theorem Line.text_head {l : Line} (hl : ∀ i ∈ l.items, i.Named) (hne : l.items ≠ []) :
    ∃ b rest, l.text = b :: rest ∧ isWordByte b = true := by
  rw [text]
  generalize l.items = is at *
  rcases is with _ | ⟨i, is⟩
  · exact absurd rfl hne
  obtain ⟨hkey, hword⟩ := Item.key_word (hl i List.mem_cons_self)
  rcases hk : i.key with _ | ⟨b, rest⟩
  · exact absurd hk hkey
  refine ⟨b, rest ++ 61 :: i.value.text ++ (is.map Item.text).flatMap (124 :: ·), ?_, ?_⟩
  · rw [List.map_cons, intercalate_cons_flatMap, Item.text, hk, List.cons_append, List.cons_append]
  · exact hword b (by rw [hk]; exact List.mem_cons_self)

/-- The lines of a section with items in them. -/
def entryLines (ls : List Line) : List Line := ls.filter fun l => !l.items.isEmpty

theorem itemLines_section {ls : List Line} (hl : ∀ l ∈ ls, ∀ i ∈ l.items, i.Named) :
    itemLines (ls.flatMap fun l => l.text ++ [10]) = (entryLines ls).map Line.text := by
  induction ls with
  | nil => simp [itemLines, entryLines]
  | cons l ls ih =>
    have hl' := hl l List.mem_cons_self
    have hrest := ih fun k hk => hl k (List.mem_cons_of_mem _ hk)
    have hnl : ∀ b ∈ l.text, isNl b = false := by
      intro b hb
      rcases Line.text_word hl' b hb with rfl | rfl | hb
      · decide
      · decide
      · have hsp := (isWordByte_iff.mp hb).1
        by_contra hn
        rw [isSpace_of_isNl (by simpa using hn)] at hsp
        simp at hsp
    rw [List.flatMap_cons, List.append_assoc, List.singleton_append, itemLines_nl (by decide),
      itemLines_line hnl, hrest]
    simp only [entryLines, List.filter_cons]
    by_cases hne : l.items = []
    · have htext : l.text = [] := by rw [Line.text, hne]; rfl
      simp [hne, htext]
    · obtain ⟨b, rest, htext, hb⟩ := Line.text_head hl' hne
      obtain ⟨hsp, -, -, h59, -, -⟩ := isWordByte_iff.mp hb
      rw [htext, List.dropWhile_cons_of_neg (by simp [hsp]), ← htext]
      simp [hne, htext, h59]

theorem lineText_eq {l : Line} (hl : ∀ i ∈ l.items, i.Named) : lineText l.text = l.text := by
  rw [lineText, List.takeWhile_eq_self_iff]
  intro b hb
  simp only [bne_iff_ne]
  rintro rfl
  rcases Line.text_word hl 0 hb with h | h | h
  · exact absurd h (by decide)
  · exact absurd h (by decide)
  · exact absurd h (by decide)

theorem splitOn_line {l : Line} (hl : ∀ i ∈ l.items, i.Named) (hne : l.items ≠ []) :
    l.text.splitOn 124 = l.items.map Item.text := by
  rw [Line.text]
  apply List.splitOn_intercalate
  · intro x hx h
    obtain ⟨i, hi, rfl⟩ := List.mem_map.mp hx
    rcases Item.text_word (hl i hi) 124 h with h | h
    · exact absurd h (by decide)
    · exact absurd h (by decide)
  · simpa using hne

theorem takeWhile_word {w : Bytes} (hw : ∀ b ∈ w, isWordByte b = true) :
    ∀ b ∈ w, (!isWordEnd b) = true := by
  intro b hb
  obtain ⟨-, h61, -, h59, -, h0⟩ := isWordByte_iff.mp (hw b hb)
  simp [isWordEnd, h61, h59, h0]

theorem dropWhile_word {w : Bytes} (hw : ∀ b ∈ w, isWordByte b = true) (hne : w ≠ []) (rest : Bytes) :
    (w ++ rest).dropWhile isSpace = w ++ rest ∧ allBlank (w ++ rest) = false := by
  rcases w with _ | ⟨b, w⟩
  · exact absurd rfl hne
  · have hsp := (isWordByte_iff.mp (hw b List.mem_cons_self)).1
    constructor
    · rw [List.cons_append, List.dropWhile_cons_of_neg (by simp [hsp])]
    · simp [allBlank, hsp]

/-- The key and the value of an item. -/
theorem itemOf_text {i : Item} (hi : i.Named) : itemOf i.text = some (i.key, i.value.text) := by
  obtain ⟨hne, hkey⟩ := Item.key_word hi
  have hstop : (fun b => !isWordEnd b) 61 = false := by decide
  have hword : wordOf i.text = some (i.key, 61 :: i.value.text) := by
    obtain ⟨hdrop, hblank⟩ := dropWhile_word hkey hne (61 :: i.value.text)
    rw [wordOf, Item.text, hblank, hdrop]
    simp only [Bool.false_eq_true, if_false]
    rw [takeWhile_append_stop hstop, dropWhile_append_stop hstop,
      List.takeWhile_eq_self_iff.mpr (takeWhile_word hkey),
      List.dropWhile_eq_nil_iff.mpr (takeWhile_word hkey), List.nil_append]
  have hvalue : wordOf i.value.text = some (i.value.text, []) := by
    obtain ⟨hdrop, hblank⟩ := dropWhile_word i.value.word i.value.ne []
    rw [List.append_nil] at hdrop hblank
    rw [wordOf, hblank, hdrop]
    simp only [Bool.false_eq_true, if_false]
    rw [List.takeWhile_eq_self_iff.mpr (takeWhile_word i.value.word),
      List.dropWhile_eq_nil_iff.mpr (takeWhile_word i.value.word)]
  rw [itemOf, hword]
  simp only [Option.bind_some]
  rw [List.dropWhile_cons_of_neg (by decide), List.head?_cons, if_pos rfl, List.tail_cons, hvalue]
  rfl

/-! The sections. -/

/-- A section whose name the scan can read and whose keys are words. -/
structure Section.Plain (s : Section) : Prop where
  name_end : 93 ∉ s.name
  name_nul : 0 ∉ s.name
  name_length : s.name.length < SNSD_MAX_SECTION_NAME_LEN
  named : ∀ l ∈ s.lines, ∀ i ∈ l.items, i.Named

theorem not_mem_spaces {b : UInt8} (hb : b ≠ 32) (n : ℕ) : b ∉ spaces n := by
  intro h
  exact hb (List.eq_of_mem_replicate h)

theorem Item.print_bracket {i : Item} (hi : i.Named) : 91 ∉ i.print := by
  have hword : ∀ w : Bytes, (∀ b ∈ w, isWordByte b = true) → 91 ∉ w := by
    intro w hw h
    exact absurd (hw 91 h) (by decide)
  have hkey := hword i.key (Item.key_word hi).2
  have hvalue := hword i.value.text i.value.word
  simp [Item.print, not_mem_spaces, hkey, hvalue]

theorem lines_bracket {ls : List Line} (hl : ∀ l ∈ ls, ∀ i ∈ l.items, i.Named) :
    91 ∉ ls.flatMap Line.print := by
  intro h
  obtain ⟨l, hmem, h⟩ := List.mem_flatMap.mp h
  have hitems : 91 ∉ [124].intercalate (l.items.map Item.print) := by
    intro h
    have hin : [91] <:+: [124].intercalate (l.items.map Item.print) := by
      obtain ⟨a, b, hab⟩ := List.append_of_mem h
      exact ⟨a, b, by rw [hab, List.append_assoc, List.singleton_append]⟩
    obtain ⟨x, hx, hin⟩ := infix_intercalate (by simp) (by decide) hin
    obtain ⟨i, hi, rfl⟩ := List.mem_map.mp hx
    exact Item.print_bracket (hl l hmem i hi) (hin.subset List.mem_cons_self)
  rw [Line.print, List.mem_append, List.mem_append] at h
  rcases h with h | h | h
  · exact not_mem_spaces (by decide) _ h
  · exact hitems h
  · exact absurd h (by decide)

theorem sectionText_print {s : Section} (hs : s.Plain) (name rest : Bytes) :
    sectionText name (s.print ++ rest) =
      if s.name = name then some ((10 :: (s.lines.flatMap Line.print ++ rest)).takeWhile (· != 91))
      else sectionText name rest := by
  have hprint : s.print ++ rest = spaces s.indent ++
      (91 :: (s.name ++ 93 :: (10 :: (s.lines.flatMap Line.print ++ rest)))) := by
    simp [Section.print]
  have hname : s.name.takeWhile (· != 0) = s.name := by
    rw [List.takeWhile_eq_self_iff]
    intro b hb
    rw [bne_iff_ne]
    rintro rfl
    exact hs.name_nul hb
  have hskip : 91 ∉ 10 :: s.lines.flatMap Line.print := by
    rw [List.mem_cons, not_or]
    exact ⟨by decide, lines_bracket hs.named⟩
  have hmore : sectionText name (10 :: s.lines.flatMap Line.print ++ rest) = _ :=
    sectionText_skip hskip rest
  rw [List.cons_append] at hmore
  rw [hprint, sectionText_skip (not_mem_spaces (by decide) _), sectionText_header hs.name_end,
    if_pos hs.name_length, hname, hmore]

/-- What stands before the next header. -/
theorem printFile_takeWhile (secs : List Section) :
    ∃ n, (printFile secs).takeWhile (· != 91) = spaces n := by
  rcases secs with _ | ⟨s, secs⟩
  · exact ⟨0, rfl⟩
  · refine ⟨s.indent, ?_⟩
    rw [printFile, List.flatMap_cons, Section.print, List.append_assoc,
      takeWhile_append_of_not_mem (not_mem_spaces (by decide) _), List.cons_append,
      List.takeWhile_cons_of_neg (by simp), List.append_nil]

/-- Each section is found under its name. -/
theorem sectionText_printFile {secs : List Section} (hs : ∀ s ∈ secs, s.Plain)
    (hd : (secs.map Section.name).Nodup) {sec : Section} (h : sec ∈ secs) :
    ∃ n, sectionText sec.name (printFile secs) =
      some (10 :: (sec.lines.flatMap Line.print ++ spaces n)) := by
  induction secs with
  | nil => simp at h
  | cons s secs ih =>
    have hplain := hs s List.mem_cons_self
    rw [List.map_cons, List.nodup_cons] at hd
    rw [printFile, List.flatMap_cons, sectionText_print hplain]
    rcases List.mem_cons.mp h with rfl | hmem
    · obtain ⟨n, hn⟩ := printFile_takeWhile secs
      rw [printFile] at hn
      refine ⟨n, ?_⟩
      rw [if_pos rfl, List.takeWhile_cons_of_pos (by decide),
        takeWhile_append_of_not_mem (lines_bracket hplain.named), hn]
    · have hne : s.name ≠ sec.name := by
        intro heq
        exact hd.1 (by rw [heq]; exact List.mem_map_of_mem hmem)
      rw [if_neg hne]
      exact ih (fun k hk => hs k (List.mem_cons_of_mem _ hk)) hd.2 hmem

end NvmeSnsd.Cfg
