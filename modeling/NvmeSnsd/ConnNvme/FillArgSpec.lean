import NvmeSnsd.ConnNvme.FillArg

/-! What the argument string says, and that it always fits. -/
namespace NvmeSnsd.ConnNvme
open Lib Cfg

/-! The buffer. -/

/-- The buffer holds `text` so far, and no call has run out of room. -/
structure Holds (a : ArgBuf) (text : Bytes) : Prop where
  read : a.buf.read 0 text.length = text
  argstr : a.argstr = text.length
  maxLen : a.maxLen = 1024-text.length
  noNul : 0 ∉ text
  calls : ∀ c ∈ a.calls, (c.2 : ℤ) < c.1

/-- There is a terminator behind the text. -/
def Ends (a : ArgBuf) (text : Bytes) : Prop := a.buf.read 0 (text.length+1) = text ++ [0]

/-- One `snprintf` that has the room for its text. -/
theorem snprintf_holds {a : ArgBuf} {text item : Bytes} (h : Holds a text) (hz : 0 ∉ item)
    (hl : text.length+item.length < 1024) :
    ∃ a', a.snprintf item = .ok (a', item.length) ∧
      Holds (a'.advance item.length) (text ++ item) ∧ Ends a' (text ++ item) := by
  have hroom : (a.maxLen%2^64).toNat = 1024-text.length := by
    rw [h.maxLen]
    omega
  have htake : item.take ((a.maxLen%2^64).toNat-1) = item := by
    apply List.take_of_length_le
    omega
  have hstore : a.argstr+(item ++ [0]).length ≤ SNSD_BUF_SIZE := by
    rw [h.argstr, List.length_append, List.length_singleton]
    exact hl
  -- the text before the new item is kept, and the item follows it
  have hread : (a.buf.write a.argstr (item ++ [0])).read 0 ((text ++ item).length+1) =
      (text ++ item) ++ [0] := by
    have hb : (a.buf.write a.argstr (item ++ [0])).read 0 text.length = text := by
      rw [Mem.read_write_before (by rw [h.argstr, Nat.zero_add]), h.read]
    have hw := Mem.read_write (m := a.buf) hstore
    rw [h.argstr] at hb hw ⊢
    have hlen : (text ++ item).length+1 = text.length+(item ++ [0]).length := by
      simp only [List.length_append, List.length_singleton]
      omega
    rw [hlen, Mem.read_append, hb, Nat.zero_add, hw, List.append_assoc]
  refine ⟨⟨a.buf.write a.argstr (item ++ [0]), a.argstr, a.maxLen,
    a.calls ++ [(a.maxLen, item.length)]⟩, ?_, ?_, hread⟩
  · rw [ArgBuf.snprintf, htake]
    simp only [if_neg (show (a.maxLen%2^64).toNat ≠ 0 by omega), Mem.store_ok hstore, ok_bind]
    rfl
  · refine ⟨?_, ?_, ?_, ?_, ?_⟩
    · have hpre := congrArg (List.take (text ++ item).length) hread
      rw [List.take_left, Mem.read, List.take_take, Nat.min_eq_left (Nat.le_succ _)] at hpre
      exact hpre
    · simp only [ArgBuf.advance, h.argstr, List.length_append]
      omega
    · simp only [ArgBuf.advance, h.maxLen, List.length_append]
      omega
    · simp only [List.mem_append, not_or]
      exact ⟨h.noNul, hz⟩
    · intro c hc
      rcases List.mem_append.mp hc with hc | hc
      · exact h.calls c hc
      · rw [List.mem_singleton.mp hc]
        simp only [h.maxLen]
        omega

/-- The text that an optional item adds. -/
def itemText (item : Option Bytes) : Bytes := item.getD []

theorem addItem_holds {a : ArgBuf} {text : Bytes} {item : Option Bytes} (h : Holds a text)
    (he : Ends a text) (hz : 0 ∉ itemText item)
    (hl : text.length+(itemText item).length < 1024) :
    ∃ a', addItem a item = .ok (a', 0) ∧ Holds a' (text ++ itemText item) ∧
      Ends a' (text ++ itemText item) := by
  cases item with
  | none =>
    refine ⟨a.advance 0, rfl, ?_, ?_⟩
    · have ha : a.advance 0 = a := by
        simp only [ArgBuf.advance, add_zero, sub_zero, Int.toNat_natCast]
      rw [ha, itemText, Option.getD_none, List.append_nil]
      exact h
    · rw [itemText, Option.getD_none, List.append_nil]
      exact he
  | some t =>
    rw [itemText, Option.getD_some] at *
    obtain ⟨a', ha, hh, hE⟩ := snprintf_holds h hz hl
    refine ⟨a'.advance t.length, ?_, hh, hE⟩
    simp only [addItem, ha, ok_bind]
    rw [if_neg (by simp)]
    rfl

/-- A row of calls that has the room for all of its texts. -/
theorem untilFailure_holds {items : List (Option Bytes)} {a : ArgBuf} {text : Bytes}
    (h : Holds a text) (he : Ends a text) (hz : ∀ i ∈ items, 0 ∉ itemText i)
    (hl : text.length+(items.flatMap itemText).length < 1024) :
    ∃ a', untilFailure (items.map fun i a => addItem a i) a = .ok (a', 0) ∧
      Holds a' (text ++ items.flatMap itemText) ∧ Ends a' (text ++ items.flatMap itemText) := by
  induction items generalizing a text with
  | nil =>
    rw [List.flatMap_nil, List.append_nil]
    exact ⟨a, rfl, h, he⟩
  | cons i items ih =>
    rw [List.flatMap_cons, List.length_append] at hl
    obtain ⟨b, hb, hh, hE⟩ := addItem_holds h he (hz i List.mem_cons_self) (by omega)
    have hz' : ∀ j ∈ items, 0 ∉ itemText j := fun j hj => hz j (List.mem_cons_of_mem _ hj)
    obtain ⟨a', ha, hh', hE'⟩ := ih hh hE hz' (by rw [List.length_append]; omega)
    rw [List.flatMap_cons, ← List.append_assoc]
    refine ⟨a', ?_, hh', hE'⟩
    rw [List.map_cons, untilFailure, hb]
    simp only [ok_bind]
    rw [if_neg (by simp)]
    exact ha

/-! The options, as they are printed. -/

/-- How an option is printed. -/
def render : Bytes × Option Bytes → Bytes
  | (key, some value) => key ++ 61 :: value
  | (key, none) => key

/-- The options that are there. -/
def present (entries : List (Bytes × Option (Option Bytes))) : List (Bytes × Option Bytes) :=
  entries.filterMap fun e => e.2.map fun v => (e.1, v)

theorem splitOption_render {o : Bytes × Option Bytes} (h : 61 ∉ o.1) :
    splitOption (render o) = o := by
  have htake : ∀ rest, (o.1 ++ 61 :: rest).takeWhile (· != 61) = o.1 := by
    intro rest
    rw [List.takeWhile_append_of_pos]
    · simp
    · intro b hb
      simp only [bne_iff_ne]
      rintro rfl
      exact h hb
  have hdrop : ∀ rest, (o.1 ++ 61 :: rest).dropWhile (· != 61) = 61 :: rest := by
    intro rest
    rw [List.dropWhile_append_of_pos]
    · simp
    · intro b hb
      simp only [bne_iff_ne]
      rintro rfl
      exact h hb
  obtain ⟨key, value⟩ := o
  cases value with
  | none =>
    have hk : key.takeWhile (· != 61) = key := by
      rw [List.takeWhile_eq_self_iff]
      intro b hb
      simp only [bne_iff_ne]
      rintro rfl
      exact h hb
    rw [splitOption, render, hk, if_neg h]
  | some v =>
    have hmem : 61 ∈ key ++ 61 :: v := by simp
    rw [splitOption, render, htake, hdrop, if_pos hmem, List.tail_cons]

/-- Neither separator is where it would be taken for one. -/
structure CleanOption (o : Bytes × Option Bytes) : Prop where
  key : 44 ∉ o.1 ∧ 61 ∉ o.1
  value : ∀ v, o.2 = some v → 44 ∉ v ∧ 61 ∉ v

theorem CleanOption.no_comma {o : Bytes × Option Bytes} (h : CleanOption o) : 44 ∉ render o := by
  obtain ⟨key, value⟩ := o
  cases value with
  | none => exact h.key.1
  | some v =>
    simp only [render, List.mem_append, List.mem_cons, not_or]
    exact ⟨h.key.1, by decide, (h.value v rfl).1⟩

theorem parseOptions_render {opts : List (Bytes × Option Bytes)} (hne : opts ≠ [])
    (hc : ∀ o ∈ opts, CleanOption o) :
    parseOptions ([44].intercalate (opts.map render)) = opts := by
  rw [parseOptions, List.splitOn_intercalate]
  · rw [List.map_map]
    calc opts.map (splitOption ∘ render) = opts.map id := by
          apply List.map_congr_left
          intro o ho
          exact splitOption_render (hc o ho).key.2
      _ = opts := List.map_id opts
  · intro l hl
    obtain ⟨o, ho, rfl⟩ := List.mem_map.mp hl
    exact (hc o ho).no_comma
  · simpa using hne

/-- `key=` is in the string only as the end of a key. -/
theorem suffix_of_infix {opts : List (Bytes × Option Bytes)} (hc : ∀ o ∈ opts, CleanOption o)
    {key : Bytes} (hk : 44 ∉ key ∧ 61 ∉ key)
    (h : key ++ [61] <:+: [44].intercalate (opts.map render)) :
    ∃ o ∈ opts, key <:+ o.1 := by
  obtain ⟨l, hl, hi⟩ := infix_intercalate (by simp) (by simp [hk.1]) h
  obtain ⟨o, ho, rfl⟩ := List.mem_map.mp hl
  refine ⟨o, ho, ?_⟩
  obtain ⟨k, value⟩ := o
  have hclean := hc _ ho
  cases value with
  | none =>
    -- there is no `=` at all
    have h61 : 61 ∈ k := hi.subset (by simp)
    exact absurd h61 hclean.key.2
  | some v =>
    -- the only `=` is the one behind the key
    rcases (infix_concat_sep hk.2 hclean.key.2).mp hi with hsuffix | hvalue
    · exact hsuffix
    · exact absurd (hvalue.subset (by simp)) (hclean.value v rfl).2

/-! The options of one connection, in the order in which they are printed. -/

def headOptions (ctx : Ctx) : List (Bytes × Option Bytes) :=
  [(ascii "traddr", some ctx.traddr.text),
    (ascii "host_traddr", some ctx.hostTraddr.text),
    (ascii "transport", some ctx.transport.text),
    (ascii "trsvcid", some ctx.trsvcid.text),
    (ascii "nqn", some ctx.subsysnqn.text)]

/-- What the calls up to the loss timeout are for. -/
def valueEntries (cfgInfo baseInfo : CfgFields) (snsdHostnqn : CStr SNSD_NQN_MAX_LEN) :
    List (Bytes × Option (Option Bytes)) :=
  let int (f : IntField) := chosen (-1) (cfgInfo.int f) (baseInfo.int f)
  let number (i : Int32) := some (signedDecimal i.toInt)
  [(ascii "hostnqn", some (some (if (cfgInfo.str .hostnqn).text ≠ invalid
      then (cfgInfo.str .hostnqn).text else snsdHostnqn.text))),
    (ascii "hostid",
      (chosen invalid (cfgInfo.str .hostid).text (baseInfo.str .hostid).text).map some),
    (ascii "nr_io_queues", (int .nrIoQueues).map number),
    (ascii "nr_write_queues", (int .nrWriteQueues).map number),
    (ascii "nr_poll_queues", (int .nrPollQueues).map number),
    (ascii "queue_size", (int .queueSize).map number),
    (ascii "keep_alive_tmo", (int .keepAliveTmo).map number),
    (ascii "reconnect_delay", (int .reconnectDelay).map number)]

/-- What the calls after it are for. -/
def flagEntries (cfgInfo baseInfo : CfgFields) : List (Bytes × Option (Option Bytes)) :=
  let int (f : IntField) := chosen (-1) (cfgInfo.int f) (baseInfo.int f)
  [(ascii "duplicate_connect", (int .duplicateConnect).map fun _ => none),
    (ascii "disable_sqflow", (int .disableSqflow).map fun _ => none),
    (ascii "hdr_digest", (int .hdrDigest).map fun _ => none),
    (ascii "data_digest", (int .dataDigest).map fun _ => none)]

/-- All of them, with `loss` for the loss timeout. -/
def entries (cfgInfo baseInfo : CfgFields) (snsdHostnqn : CStr SNSD_NQN_MAX_LEN)
    (loss : Option (Option Bytes)) : List (Bytes × Option (Option Bytes)) :=
  valueEntries cfgInfo baseInfo snsdHostnqn ++
    (ascii "ctrl_loss_tmo", loss) :: flagEntries cfgInfo baseInfo

/-- The loss timeout that is configured. -/
def lossOption (cfgInfo baseInfo : CfgFields) : Option (Option Bytes) :=
  (chosen (-1) (cfgInfo.int .ctrlLossTmo) (baseInfo.int .ctrlLossTmo)).map fun i =>
    some (signedDecimal i.toInt)

/-- What an entry prints. -/
def entryItem (e : Bytes × Option (Option Bytes)) : Option Bytes :=
  e.2.map fun v => 44 :: render (e.1, v)

section
variable (cfgInfo baseInfo : CfgFields) (snsdHostnqn : CStr SNSD_NQN_MAX_LEN) (ctx : Ctx)

theorem addArguments_eq : addArguments cfgInfo baseInfo snsdHostnqn =
    ((entries cfgInfo baseInfo snsdHostnqn (lossOption cfgInfo baseInfo)).map entryItem).map
      fun i a => addItem a i := by
  simp only [addArguments, entries, valueEntries, flagEntries, lossOption, List.map_cons,
    List.map_nil, entryItem, Option.map_map, Option.map_some, render, snsdNvmeAddHostnqn, snsdNvmeAddArgument,
    snsdNvmeAddIntArgument, snsdNvmeAddNoargArgument, withValue, List.cons_append,
    List.nil_append, Function.comp_def]
  rfl

theorem ctrlFormat_eq : ctrlFormat ctx = [44].intercalate ((headOptions ctx).map render) := by
  have h1 : ascii ",host_traddr=" = 44 :: ascii "host_traddr" ++ [61] := by decide
  have h2 : ascii ",transport=" = 44 :: ascii "transport" ++ [61] := by decide
  have h3 : ascii ",trsvcid=" = 44 :: ascii "trsvcid" ++ [61] := by decide
  have h4 : ascii ",nqn=" = 44 :: ascii "nqn" ++ [61] := by decide
  have h0 : ascii "traddr=" = ascii "traddr" ++ [61] := by decide
  simp only [ctrlFormat, h0, h1, h2, h3, h4, headOptions, List.map_cons, List.map_nil, render,
    intercalate_cons_flatMap, List.flatMap_cons, List.flatMap_nil, List.append_assoc,
    List.cons_append, List.nil_append, List.append_nil]

/-- Every key of the kernel that is printed, and its default. -/
theorem wanted_eq : wanted cfgInfo baseInfo snsdHostnqn ctx =
    (headOptions ctx).map (fun o => (o.1, some o.2)) ++ entries cfgInfo baseInfo snsdHostnqn
      (some ((lossOption cfgInfo baseInfo).getD (some (ascii "1800")))) := by
  have h1800 : ascii "1800" = signedDecimal (1800 : Int32).toInt := by decide
  have hloss : some (signedDecimal ((chosen (-1) (cfgInfo.int .ctrlLossTmo)
      (baseInfo.int .ctrlLossTmo)).getD 1800).toInt) =
      (lossOption cfgInfo baseInfo).getD (some (ascii "1800")) := by
    rw [lossOption, h1800]
    cases chosen (-1) (cfgInfo.int .ctrlLossTmo) (baseInfo.int .ctrlLossTmo) <;> rfl
  simp only [wanted, hloss, headOptions, entries, valueEntries, flagEntries, List.map_cons,
    List.map_nil, List.cons_append, List.nil_append]

end

theorem flatMap_itemText (es : List (Bytes × Option (Option Bytes))) :
    (es.map entryItem).flatMap itemText = ((present es).map render).flatMap (44 :: ·) := by
  induction es with
  | nil => rfl
  | cons e es ih =>
    obtain ⟨k, v⟩ := e
    rw [List.map_cons, List.flatMap_cons, ih]
    cases v with
    | none => rfl
    | some v => rfl

/-- The values of a key in a table whose keys are all different. -/
theorem filter_present {es : List (Bytes × Option (Option Bytes))} (hn : (es.map (·.1)).Nodup)
    (key : Bytes) :
    ((present es).filter (·.1 == key)).map (·.2) = (es.lookup key).join.toList := by
  induction es with
  | nil => rfl
  | cons e es ih =>
    obtain ⟨k, v⟩ := e
    obtain ⟨hk, hn⟩ := List.nodup_cons.mp hn
    by_cases he : k = key
    · subst he
      -- no later entry has the key
      have hrest : (present es).filter (·.1 == k) = [] := by
        rw [List.filter_eq_nil_iff]
        intro o ho hok
        obtain ⟨e, hem, heo⟩ := List.mem_filterMap.mp ho
        obtain ⟨w, -, rfl⟩ := Option.map_eq_some_iff.mp heo
        exact hk (List.mem_map.mpr ⟨e, hem, beq_iff_eq.mp hok⟩)
      rw [List.lookup_cons_self]
      cases v with
      | none =>
        have hp : present ((k, none) :: es) = present es := rfl
        rw [hp, hrest]
        rfl
      | some v =>
        have hp : present ((k, some v) :: es) = (k, v) :: present es := rfl
        rw [hp, List.filter_cons_of_pos (by simp), hrest]
        rfl
    · have hl : List.lookup key ((k, v) :: es) = es.lookup key := by
        have hb : (key == k) = false := by simpa using Ne.symm he
        rw [List.lookup_cons, hb]
      rw [hl, ← ih hn]
      cases v with
      | none => rfl
      | some v =>
        have hp : present ((k, some v) :: es) = (k, v) :: present es := rfl
        rw [hp, List.filter_cons_of_neg (by simpa using he)]

/-! The worst case. -/

/-- An entry that takes at most `n` bytes, none of them a terminator. -/
structure FitEntry (e : Bytes × Option (Option Bytes)) (n : ℕ) : Prop where
  noNul : 0 ∉ itemText (entryItem e)
  length : (itemText (entryItem e)).length ≤ n

/-- An entry that can be told from its neighbours. -/
def CleanEntry (e : Bytes × Option (Option Bytes)) : Prop :=
  ∀ v, e.2 = some v → CleanOption (e.1, v)

/-- No separator and no terminator. -/
def PlainKey (key : Bytes) : Prop := (44 ∉ key ∧ 61 ∉ key) ∧ 0 ∉ key

instance (key : Bytes) : Decidable (PlainKey key) := inferInstanceAs (Decidable ((_ ∧ _) ∧ _))

theorem fit_text {key : Bytes} {value : Option Bytes} {m : ℕ} (hk : PlainKey key)
    (hv : ∀ t, value = some t → 0 ∉ t ∧ t.length ≤ m) :
    FitEntry (key, value.map some) (key.length+m+2) := by
  cases value with
  | none => exact ⟨List.not_mem_nil, Nat.zero_le _⟩
  | some t =>
    obtain ⟨hz, hl⟩ := hv t rfl
    have hit : itemText (entryItem (key, (some t).map some)) = 44 :: (key ++ 61 :: t) := rfl
    constructor
    · rw [hit]
      simp only [List.mem_cons, List.mem_append, not_or]
      exact ⟨by decide, hk.2, by decide, hz⟩
    · rw [hit]
      simp only [List.length_cons, List.length_append]
      omega

theorem clean_text {key : Bytes} {value : Option Bytes} (hk : PlainKey key)
    (hv : ∀ t, value = some t → 44 ∉ t ∧ 61 ∉ t) : CleanEntry (key, value.map some) := by
  intro v h
  obtain ⟨t, ht, rfl⟩ := Option.map_eq_some_iff.mp h
  refine ⟨hk.1, fun w hw => ?_⟩
  obtain rfl := Option.some.inj hw
  exact hv t ht

/-- A number has nothing in it but digits and a sign. -/
theorem notMem_signedDecimal {i : ℤ} {b : UInt8} (hb : b.toNat < 45 ∨ 57 < b.toNat) :
    b ∉ signedDecimal i := by
  intro h
  rcases mem_signedDecimal h with rfl | ⟨hlo, hhi⟩
  · exact absurd hb (by decide)
  · omega

theorem fit_number {key : Bytes} {value : Option Int32} (hk : PlainKey key) :
    FitEntry (key, value.map fun i => some (signedDecimal i.toInt)) (key.length+13) := by
  have h : FitEntry (key, (value.map fun i => signedDecimal i.toInt).map some)
      (key.length+11+2) := by
    apply fit_text hk
    intro t ht
    obtain ⟨i, -, rfl⟩ := Option.map_eq_some_iff.mp ht
    exact ⟨notMem_signedDecimal (by decide), signedDecimal_length_le i⟩
  rw [Option.map_map] at h
  exact h

theorem clean_number {key : Bytes} {value : Option Int32} (hk : PlainKey key) :
    CleanEntry (key, value.map fun i => some (signedDecimal i.toInt)) := by
  have h : CleanEntry (key, (value.map fun i => signedDecimal i.toInt).map some) := by
    apply clean_text hk
    intro t ht
    obtain ⟨i, -, rfl⟩ := Option.map_eq_some_iff.mp ht
    exact ⟨notMem_signedDecimal (by decide), notMem_signedDecimal (by decide)⟩
  rw [Option.map_map] at h
  exact h

theorem fit_flag {α : Type} {key : Bytes} {value : Option α} (hk : PlainKey key) :
    FitEntry (key, value.map fun _ => none) (key.length+1) := by
  cases value with
  | none => exact ⟨List.not_mem_nil, Nat.zero_le _⟩
  | some x =>
    have hit : itemText (entryItem (key, (some x).map fun _ => none)) = 44 :: key := rfl
    constructor
    · rw [hit]
      simp only [List.mem_cons, not_or]
      exact ⟨by decide, hk.2⟩
    · rw [hit, List.length_cons]

theorem clean_flag {α : Type} {key : Bytes} {value : Option α} (hk : PlainKey key) :
    CleanEntry (key, value.map fun _ => none) := by
  intro v h
  obtain ⟨x, -, rfl⟩ := Option.map_eq_some_iff.mp h
  exact ⟨hk.1, fun w hw => by cases hw⟩

theorem flatMap_length_le {es : List (Bytes × Option (Option Bytes))} {bounds : List ℕ}
    (h : List.Forall₂ FitEntry es bounds) :
    ((es.map entryItem).flatMap itemText).length ≤ bounds.sum := by
  induction h with
  | nil => exact Nat.zero_le _
  | cons hg _ ih =>
    rw [List.map_cons, List.flatMap_cons, List.length_append, List.sum_cons]
    exact Nat.add_le_add hg.length ih

/-- No string of the records or of the context has a separator in it. -/
structure CleanStrings (cfgInfo baseInfo : CfgFields) (snsdHostnqn : CStr SNSD_NQN_MAX_LEN)
    (ctx : Ctx) : Prop where
  cfg : ∀ f, 44 ∉ (cfgInfo.str f).text ∧ 61 ∉ (cfgInfo.str f).text
  base : ∀ f, 44 ∉ (baseInfo.str f).text ∧ 61 ∉ (baseInfo.str f).text
  hostnqn : 44 ∉ snsdHostnqn.text ∧ 61 ∉ snsdHostnqn.text
  traddr : 44 ∉ ctx.traddr.text ∧ 61 ∉ ctx.traddr.text
  hostTraddr : 44 ∉ ctx.hostTraddr.text ∧ 61 ∉ ctx.hostTraddr.text
  transport : 44 ∉ ctx.transport.text ∧ 61 ∉ ctx.transport.text
  trsvcid : 44 ∉ ctx.trsvcid.text ∧ 61 ∉ ctx.trsvcid.text
  subsysnqn : 44 ∉ ctx.subsysnqn.text ∧ 61 ∉ ctx.subsysnqn.text

theorem chosen_eq_some {α : Type} [DecidableEq α] {unset x y v : α}
    (h : chosen unset x y = some v) : v = x ∨ v = y := by
  rw [chosen] at h
  split at h
  · exact Or.inl (Option.some.inj h).symm
  · split at h
    · exact Or.inr (Option.some.inj h).symm
    · simp at h

section
variable {cfgInfo baseInfo : CfgFields} {snsdHostnqn : CStr SNSD_NQN_MAX_LEN} {ctx : Ctx}

/-- The most that each call prints. -/
theorem fit_entries : List.Forall₂ FitEntry
    (entries cfgInfo baseInfo snsdHostnqn (lossOption cfgInfo baseInfo))
    [264, 44, 25, 28, 27, 23, 27, 28, 26, 18, 15, 11, 12] := by
  have hnqn : FitEntry (ascii "hostnqn", (some (if (cfgInfo.str .hostnqn).text ≠ invalid
      then (cfgInfo.str .hostnqn).text else snsdHostnqn.text)).map some) 264 := by
    apply fit_text (m := 255) (by decide)
    intro t ht
    obtain rfl := Option.some.inj ht
    split
    · exact ⟨(cfgInfo.str .hostnqn).noNul, Nat.le_of_lt_succ (cfgInfo.str .hostnqn).fits⟩
    · exact ⟨snsdHostnqn.noNul, Nat.le_of_lt_succ snsdHostnqn.fits⟩
  have hid : FitEntry (ascii "hostid", (chosen invalid (cfgInfo.str .hostid).text
      (baseInfo.str .hostid).text).map some) 44 := by
    apply fit_text (m := 36) (by decide)
    intro t ht
    rcases chosen_eq_some ht with rfl | rfl
    · exact ⟨(cfgInfo.str .hostid).noNul, Nat.le_of_lt_succ (cfgInfo.str .hostid).fits⟩
    · exact ⟨(baseInfo.str .hostid).noNul, Nat.le_of_lt_succ (baseInfo.str .hostid).fits⟩
  refine .cons hnqn (.cons hid ?_)
  iterate 7 refine .cons (fit_number (by decide)) ?_
  iterate 4 refine .cons (fit_flag (by decide)) ?_
  exact .nil

theorem clean_entries (hc : CleanStrings cfgInfo baseInfo snsdHostnqn ctx) :
    ∀ e ∈ entries cfgInfo baseInfo snsdHostnqn (lossOption cfgInfo baseInfo), CleanEntry e := by
  have hnqn : CleanEntry (ascii "hostnqn", (some (if (cfgInfo.str .hostnqn).text ≠ invalid
      then (cfgInfo.str .hostnqn).text else snsdHostnqn.text)).map some) := by
    apply clean_text (by decide)
    intro t ht
    obtain rfl := Option.some.inj ht
    split
    · exact hc.cfg .hostnqn
    · exact hc.hostnqn
  have hid : CleanEntry (ascii "hostid", (chosen invalid (cfgInfo.str .hostid).text
      (baseInfo.str .hostid).text).map some) := by
    apply clean_text (by decide)
    intro t ht
    rcases chosen_eq_some ht with rfl | rfl
    · exact hc.cfg .hostid
    · exact hc.base .hostid
  simp only [entries, valueEntries, flagEntries, lossOption, List.cons_append, List.nil_append]
  refine List.forall_mem_cons.mpr ⟨hnqn, List.forall_mem_cons.mpr ⟨hid, ?_⟩⟩
  iterate 7 refine List.forall_mem_cons.mpr ⟨clean_number (by decide), ?_⟩
  iterate 4 refine List.forall_mem_cons.mpr ⟨clean_flag (by decide), ?_⟩
  exact List.forall_mem_nil _

theorem ctrlFormat_noNul : 0 ∉ ctrlFormat ctx := by
  have h0 : 0 ∉ ascii "traddr=" := by decide
  have h1 : 0 ∉ ascii ",host_traddr=" := by decide
  have h2 : 0 ∉ ascii ",transport=" := by decide
  have h3 : 0 ∉ ascii ",trsvcid=" := by decide
  have h4 : 0 ∉ ascii ",nqn=" := by decide
  simp only [ctrlFormat, List.mem_append, h0, h1, h2, h3, h4, ctx.traddr.noNul,
    ctx.hostTraddr.noNul, ctx.transport.noNul, ctx.trsvcid.noNul, ctx.subsysnqn.noNul, or_self,
    not_false_eq_true]

theorem ctrlFormat_length_le (ctx : Ctx) : (ctrlFormat ctx).length ≤ 440 := by
  have h0 : (ascii "traddr=").length = 7 := by decide
  have h1 : (ascii ",host_traddr=").length = 13 := by decide
  have h2 : (ascii ",transport=").length = 11 := by decide
  have h3 : (ascii ",trsvcid=").length = 9 := by decide
  have h4 : (ascii ",nqn=").length = 5 := by decide
  have ha : ctx.traddr.text.length ≤ 63 := Nat.le_of_lt_succ ctx.traddr.fits
  have hb : ctx.hostTraddr.text.length ≤ 63 := Nat.le_of_lt_succ ctx.hostTraddr.fits
  have hc : ctx.transport.text.length ≤ 7 := Nat.le_of_lt_succ ctx.transport.fits
  have hd : ctx.trsvcid.text.length ≤ 7 := Nat.le_of_lt_succ ctx.trsvcid.fits
  have he : ctx.subsysnqn.text.length ≤ 255 := Nat.le_of_lt_succ ctx.subsysnqn.fits
  simp only [ctrlFormat, List.length_append, h0, h1, h2, h3, h4]
  omega

theorem clean_headOptions (hc : CleanStrings cfgInfo baseInfo snsdHostnqn ctx) :
    ∀ o ∈ headOptions ctx, CleanOption o := by
  have hsome : ∀ {key t : Bytes}, (44 ∉ key ∧ 61 ∉ key) → (44 ∉ t ∧ 61 ∉ t) →
      CleanOption (key, some t) := by
    intro key t hk ht
    refine ⟨hk, fun v hv => ?_⟩
    obtain rfl := Option.some.inj hv
    exact ht
  intro o ho
  simp only [headOptions, List.mem_cons, List.not_mem_nil, or_false] at ho
  rcases ho with rfl | rfl | rfl | rfl | rfl
  · exact hsome (by decide) hc.traddr
  · exact hsome (by decide) hc.hostTraddr
  · exact hsome (by decide) hc.transport
  · exact hsome (by decide) hc.trsvcid
  · exact hsome (by decide) hc.subsysnqn

theorem clean_present {es : List (Bytes × Option (Option Bytes))} (h : ∀ e ∈ es, CleanEntry e) :
    ∀ o ∈ present es, CleanOption o := by
  intro o ho
  obtain ⟨e, he, heo⟩ := List.mem_filterMap.mp ho
  obtain ⟨v, hv, rfl⟩ := Option.map_eq_some_iff.mp heo
  exact h e he v hv

/-- Without a loss timeout no printed key ends in its name. -/
theorem no_loss_suffix {o : Bytes × Option Bytes}
    (ho : o ∈ headOptions ctx ++ present (entries cfgInfo baseInfo snsdHostnqn none)) :
    ¬ascii "ctrl_loss_tmo" <:+ o.1 := by
  have hhead : ∀ k ∈ (headOptions ctx).map (·.1), ¬ascii "ctrl_loss_tmo" <:+ k := by
    show ∀ k ∈ ["traddr", "host_traddr", "transport", "trsvcid", "nqn"].map ascii, _
    decide
  have hvalue : ∀ k ∈ (valueEntries cfgInfo baseInfo snsdHostnqn).map (·.1),
      ¬ascii "ctrl_loss_tmo" <:+ k := by
    show ∀ k ∈ ["hostnqn", "hostid", "nr_io_queues", "nr_write_queues", "nr_poll_queues",
      "queue_size", "keep_alive_tmo", "reconnect_delay"].map ascii, _
    decide
  have hflag : ∀ k ∈ (flagEntries cfgInfo baseInfo).map (·.1), ¬ascii "ctrl_loss_tmo" <:+ k := by
    show ∀ k ∈ ["duplicate_connect", "disable_sqflow", "hdr_digest", "data_digest"].map ascii, _
    decide
  rcases List.mem_append.mp ho with ho | ho
  · exact hhead _ (List.mem_map_of_mem ho)
  · obtain ⟨e, he, heo⟩ := List.mem_filterMap.mp ho
    obtain ⟨v, hev, rfl⟩ := Option.map_eq_some_iff.mp heo
    rcases List.mem_append.mp he with he | he
    · exact hvalue _ (List.mem_map_of_mem he)
    · rcases List.mem_cons.mp he with rfl | he
      · simp at hev
      · exact hflag _ (List.mem_map_of_mem he)

/-- The options that are printed before the default. -/
def printed (cfgInfo baseInfo : CfgFields) (snsdHostnqn : CStr SNSD_NQN_MAX_LEN) (ctx : Ctx) :
    List (Bytes × Option Bytes) :=
  headOptions ctx ++ present (entries cfgInfo baseInfo snsdHostnqn (lossOption cfgInfo baseInfo))

theorem clean_printed (hc : CleanStrings cfgInfo baseInfo snsdHostnqn ctx) :
    ∀ o ∈ printed cfgInfo baseInfo snsdHostnqn ctx, CleanOption o := by
  intro o ho
  rcases List.mem_append.mp ho with ho | ho
  · exact clean_headOptions hc o ho
  · exact clean_present (clean_entries hc) o ho

theorem loss_printed (h : (lossOption cfgInfo baseInfo).isSome = true) : ascii "ctrl_loss_tmo=" <:+:
    [44].intercalate ((printed cfgInfo baseInfo snsdHostnqn ctx).map render) := by
  obtain ⟨w, hw⟩ := Option.isSome_iff_exists.mp h
  obtain ⟨i, -, hi⟩ := Option.map_eq_some_iff.mp hw
  have hmem : (ascii "ctrl_loss_tmo", some (signedDecimal i.toInt)) ∈
      printed cfgInfo baseInfo snsdHostnqn ctx := by
    rw [printed, hw, ← hi]
    apply List.mem_append_right
    apply List.mem_filterMap.mpr
    refine ⟨(ascii "ctrl_loss_tmo", some (some (signedDecimal i.toInt))), ?_, rfl⟩
    exact List.mem_append_right _ List.mem_cons_self
  have hkey : ascii "ctrl_loss_tmo=" = ascii "ctrl_loss_tmo" ++ [61] := by decide
  rw [hkey]
  refine List.IsInfix.trans ?_ (infix_intercalate_of_mem (List.mem_map_of_mem hmem))
  exact ⟨[], signedDecimal i.toInt, by simp [render]⟩

/-- `strstr` finds a loss timeout exactly when one is configured. -/
theorem strstr_loss (hc : CleanStrings cfgInfo baseInfo snsdHostnqn ctx) :
    ascii "ctrl_loss_tmo=" <:+:
        [44].intercalate ((printed cfgInfo baseInfo snsdHostnqn ctx).map render) ↔
      (lossOption cfgInfo baseInfo).isSome = true := by
  have hkey : ascii "ctrl_loss_tmo=" = ascii "ctrl_loss_tmo" ++ [61] := by decide
  rw [hkey]
  constructor
  · intro h
    obtain ⟨o, ho, hs⟩ := suffix_of_infix (clean_printed hc) (by decide) h
    by_contra hn
    rw [Option.not_isSome_iff_eq_none] at hn
    rw [printed, hn] at ho
    exact no_loss_suffix ho hs
  · intro h
    rw [← hkey]
    exact loss_printed h

/-- What is printed when no loss timeout is configured. -/
def defaultOption (cfgInfo baseInfo : CfgFields) : List (Bytes × Option Bytes) :=
  if (lossOption cfgInfo baseInfo).isSome = true then []
  else [(ascii "ctrl_loss_tmo", some (ascii "1800"))]

/-- The default goes to the end of the string, and that is all the difference
there is to the table of what is wanted. -/
theorem printed_perm : (printed cfgInfo baseInfo snsdHostnqn ctx ++
      defaultOption cfgInfo baseInfo).Perm
    (present (wanted cfgInfo baseInfo snsdHostnqn ctx)) := by
  have happ : ∀ l m, present (l ++ m) = present l ++ present m := by
    intro l m
    exact List.filterMap_append
  have hhead : present ((headOptions ctx).map fun o => (o.1, some o.2)) = headOptions ctx := rfl
  rw [wanted_eq, printed, defaultOption, happ, hhead]
  cases hl : lossOption cfgInfo baseInfo with
  | some w =>
    rw [if_pos Option.isSome_some, List.append_nil, Option.getD_some]
  | none =>
    have hnone : present ((ascii "ctrl_loss_tmo", none) :: flagEntries cfgInfo baseInfo) =
        present (flagEntries cfgInfo baseInfo) := rfl
    have hsome : present ((ascii "ctrl_loss_tmo", some (some (ascii "1800"))) ::
        flagEntries cfgInfo baseInfo) =
        (ascii "ctrl_loss_tmo", some (ascii "1800")) :: present (flagEntries cfgInfo baseInfo) := rfl
    rw [if_neg (by simp), Option.getD_none, entries, entries, happ, happ, hnone, hsome,
      List.append_assoc, List.append_assoc]
    apply List.Perm.append_left
    apply List.Perm.append_left
    exact List.perm_append_singleton _ _

theorem clean_all (hc : CleanStrings cfgInfo baseInfo snsdHostnqn ctx) :
    ∀ o ∈ printed cfgInfo baseInfo snsdHostnqn ctx ++ defaultOption cfgInfo baseInfo,
      CleanOption o := by
  intro o ho
  rcases List.mem_append.mp ho with ho | ho
  · exact clean_printed hc o ho
  · rw [defaultOption] at ho
    split at ho
    · simp at ho
    · rw [List.mem_singleton] at ho
      subst ho
      refine ⟨by decide, fun v hv => ?_⟩
      obtain rfl := Option.some.inj hv
      decide

/-- The text before the default. -/
theorem ctrlFormat_append (ctx : Ctx) : ctrlFormat ctx ++
    ((entries cfgInfo baseInfo snsdHostnqn (lossOption cfgInfo baseInfo)).map entryItem).flatMap
      itemText = [44].intercalate ((printed cfgInfo baseInfo snsdHostnqn ctx).map render) := by
  rw [ctrlFormat_eq, flatMap_itemText, printed, List.map_append]
  simp only [headOptions, List.map_cons, List.map_nil, List.cons_append, List.nil_append,
    intercalate_cons_flatMap, List.flatMap_cons, List.flatMap_nil, List.append_assoc,
    List.append_nil]

theorem ends_of_snprintf {a : ArgBuf} {text : Bytes} {len : ℤ} (h : Ends a text) :
    Ends (a.advance len) text := h

/-- What is behind the options when the search in the text finds no loss timeout. -/
def addedOption (text : Bytes) : List (Bytes × Option Bytes) :=
  if ascii "ctrl_loss_tmo=" <:+: text then [] else [(ascii "ctrl_loss_tmo", some (ascii "1800"))]

/-- The text that is searched. -/
def printedText (cfgInfo baseInfo : CfgFields) (snsdHostnqn : CStr SNSD_NQN_MAX_LEN) (ctx : Ctx) :
    Bytes := [44].intercalate ((printed cfgInfo baseInfo snsdHostnqn ctx).map render)

/-- All that ends up in the string. -/
def allOptions (cfgInfo baseInfo : CfgFields) (snsdHostnqn : CStr SNSD_NQN_MAX_LEN) (ctx : Ctx) :
    List (Bytes × Option Bytes) :=
  printed cfgInfo baseInfo snsdHostnqn ctx ++
    addedOption (printedText cfgInfo baseInfo snsdHostnqn ctx)

variable (cfgInfo baseInfo snsdHostnqn ctx) in
/-- What the calls leave in the buffer, whatever the strings are. -/
theorem fillArg_writes (argstr : Mem SNSD_BUF_SIZE) :
    ∃ a out, snsdNvmeFillArg argstr cfgInfo baseInfo snsdHostnqn ctx = .ok (a, true) ∧
      a.buf.cstr 0 = .ok out ∧ out.length ≤ 1023 ∧ (∀ c ∈ a.calls, (c.2 : ℤ) < c.1) ∧
      out = [44].intercalate ((allOptions cfgInfo baseInfo snsdHostnqn ctx).map render) := by
  have hfit : List.Forall₂ FitEntry (entries cfgInfo baseInfo snsdHostnqn
      (lossOption cfgInfo baseInfo)) _ := fit_entries
  have hhead := ctrlFormat_length_le ctx
  have hrest := flatMap_length_le hfit
  have hz : ∀ i ∈ (entries cfgInfo baseInfo snsdHostnqn (lossOption cfgInfo baseInfo)).map
      entryItem, 0 ∉ itemText i := by
    intro i hi
    obtain ⟨e, he, rfl⟩ := List.mem_map.mp hi
    obtain ⟨k, hk, rfl⟩ := List.mem_iff_getElem.mp he
    exact (hfit.get hk (hfit.length_eq ▸ hk)).noNul
  simp only [List.sum_cons, List.sum_nil] at hrest
  -- the head, then the calls
  have h0 : Holds ⟨argstr, 0, SNSD_BUF_SIZE, []⟩ [] :=
    ⟨rfl, rfl, rfl, List.not_mem_nil, by simp⟩
  obtain ⟨a1, h1, hh1, he1⟩ := snprintf_holds h0 (ctrlFormat_noNul : 0 ∉ ctrlFormat ctx)
    (by rw [List.length_nil]; omega)
  rw [List.nil_append] at hh1 he1
  obtain ⟨a2, h2, hh2, he2⟩ := untilFailure_holds hh1 (ends_of_snprintf he1) hz (by omega)
  rw [← addArguments_eq] at h2
  have hlen : (ctrlFormat ctx ++ ((entries cfgInfo baseInfo snsdHostnqn
      (lossOption cfgInfo baseInfo)).map entryItem).flatMap itemText).length ≤ 988 := by
    rw [List.length_append]
    omega
  rw [ctrlFormat_append, ← printedText] at hh2 he2 hlen
  have hcstr := Mem.cstr_of_read hh2.noNul he2
  have hn1 : ¬((ctrlFormat ctx).length : ℤ) < 0 := by omega
  by_cases hfind : ascii "ctrl_loss_tmo=" <:+: printedText cfgInfo baseInfo snsdHostnqn ctx
  · refine ⟨a2, _, ?_, hcstr, by omega, hh2.calls, ?_⟩
    · simp only [snsdNvmeFillArg, h1, h2, hcstr, ok_bind, if_neg hn1, if_pos hfind]
      rfl
    · rw [allOptions, addedOption, if_pos hfind, List.append_nil, printedText]
  · have hdef : ascii ",ctrl_loss_tmo=1800" =
        44 :: render (ascii "ctrl_loss_tmo", some (ascii "1800")) := by decide
    have hdl : (ascii ",ctrl_loss_tmo=1800").length = 19 := by decide
    obtain ⟨a3, h3, hh3, he3⟩ := snprintf_holds hh2
      (show 0 ∉ ascii ",ctrl_loss_tmo=1800" by decide) (by omega)
    refine ⟨a3, _, ?_, Mem.cstr_of_read hh3.noNul he3, ?_, hh3.calls, ?_⟩
    · have hn3 : ¬((ascii ",ctrl_loss_tmo=1800").length : ℤ) < 0 := by omega
      simp only [snsdNvmeFillArg, h1, h2, h3, hcstr, ok_bind, if_neg hn1, if_neg hn3,
        if_neg hfind]
      rfl
    · rw [List.length_append]
      omega
    · rw [allOptions, addedOption, if_neg hfind, hdef]
      simp only [printedText, printed, headOptions, List.map_cons, List.map_append, List.map_nil,
        List.cons_append, List.nil_append, intercalate_cons_flatMap, List.flatMap_append,
        List.flatMap_cons, List.flatMap_nil, List.append_assoc, List.append_nil]

/-- Where no string has a separator in it, the search finds what is configured. -/
theorem allOptions_clean (hc : CleanStrings cfgInfo baseInfo snsdHostnqn ctx) :
    allOptions cfgInfo baseInfo snsdHostnqn ctx =
      printed cfgInfo baseInfo snsdHostnqn ctx ++ defaultOption cfgInfo baseInfo := by
  rw [allOptions, addedOption, defaultOption, printedText]
  by_cases hloss : (lossOption cfgInfo baseInfo).isSome = true
  · rw [if_pos hloss, if_pos ((strstr_loss hc).mpr hloss)]
  · rw [if_neg hloss, if_neg (mt (strstr_loss hc).mp hloss)]

/-- The string fits whatever is configured, no `snprintf` runs out of room, and
every key has exactly the value that it is to have. -/
theorem fill_arg_options (argstr : Mem SNSD_BUF_SIZE)
    (hc : CleanStrings cfgInfo baseInfo snsdHostnqn ctx) :
    ∃ a out, snsdNvmeFillArg argstr cfgInfo baseInfo snsdHostnqn ctx = .ok (a, true) ∧
      a.buf.cstr 0 = .ok out ∧ out.length ≤ 1023 ∧ (∀ c ∈ a.calls, (c.2 : ℤ) < c.1) ∧
      ∀ key, valuesOf key out =
        ((wanted cfgInfo baseInfo snsdHostnqn ctx).lookup key).join.toList := by
  obtain ⟨a, out, hfill, hcstr, hl, hcalls, rfl⟩ :=
    fillArg_writes cfgInfo baseInfo snsdHostnqn ctx argstr
  rw [allOptions_clean hc] at hcstr hl
  refine ⟨a, _, hfill, hcstr, hl, hcalls, fun key => ?_⟩
  have hkeys : ((wanted cfgInfo baseInfo snsdHostnqn ctx).map (·.1)).Nodup := by
    show (["traddr", "host_traddr", "transport", "trsvcid", "nqn", "hostnqn", "hostid",
      "nr_io_queues", "nr_write_queues", "nr_poll_queues", "queue_size", "keep_alive_tmo",
      "reconnect_delay", "ctrl_loss_tmo", "duplicate_connect", "disable_sqflow", "hdr_digest",
      "data_digest"].map ascii).Nodup
    decide
  have hprinted : (printed cfgInfo baseInfo snsdHostnqn ctx ++ defaultOption cfgInfo baseInfo).Perm
      (present (wanted cfgInfo baseInfo snsdHostnqn ctx)) := printed_perm
  have hperm := (hprinted.filter (·.1 == key)).map (·.2)
  rw [filter_present hkeys] at hperm
  rw [valuesOf, parseOptions_render (by simp [printed, headOptions]) (clean_all hc)]
  -- a list with at most one element has no other order
  cases hw : ((wanted cfgInfo baseInfo snsdHostnqn ctx).lookup key).join with
  | none =>
    rw [hw] at hperm
    exact List.perm_nil.mp hperm
  | some v =>
    rw [hw] at hperm
    exact List.perm_singleton.mp hperm

end

/-- A record in which nothing is set. -/
def unsetFields : CfgFields where
  str f := CStr.clip f.size_pos invalid
  int _ := -1

/-- The base has a queue size and the entry has nothing. -/
theorem fill_arg_queue_size :
    ∃ a out, snsdNvmeFillArg (Mem.zero _) unsetFields (unsetFields.setInt .queueSize 64)
        (CStr.clip (by decide) (ascii "nqn.2020-02.host")) (rdmaCtx "4420") = .ok (a, true) ∧
      a.buf.cstr 0 = .ok out ∧ out.length ≤ 1023 ∧ (∀ c ∈ a.calls, (c.2 : ℤ) < c.1) ∧
      ∀ key, valuesOf key out = ((wanted unsetFields (unsetFields.setInt .queueSize 64)
        (CStr.clip (by decide) (ascii "nqn.2020-02.host"))
        (rdmaCtx "4420")).lookup key).join.toList := by
  apply fill_arg_options
  have hstr : ∀ f, 44 ∉ (unsetFields.str f).text ∧ 61 ∉ (unsetFields.str f).text := by
    intro f
    cases f <;> decide
  exact ⟨hstr, hstr, by decide, by decide, by decide, by decide, by decide, by decide⟩

end NvmeSnsd.ConnNvme
