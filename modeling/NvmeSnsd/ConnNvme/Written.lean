import NvmeSnsd.Cfg.Stated
import NvmeSnsd.ConnNvme.Pasted

/-! The number that an entry sets for an option, and the number that arrives. -/
namespace NvmeSnsd.ConnNvme
open Lib Cfg

/-- The options with a number that the kernel is asked about. -/
def integerOptions : List Commandline :=
  commandLineOptions.filter fun c => c.checkValidity == .para && c.field.intField.isSome

example : integerOptions.map (·.option) = ["nr-io-queues", "nr-write-queues", "nr-poll-queues",
    "queue-size", "keep-alive-tmo", "reconnect-delay", "ctrl-loss-tmo"].map ascii := by
  decide

section
variable {cfgInfo baseInfo : CfgFields} {snsdHostnqn : CStr SNSD_NQN_MAX_LEN} {ctx : Ctx}
  {c : Commandline}

variable (cfgInfo baseInfo) in
/-- Where the number of an option comes from. -/
theorem integer_entry (hc : c ∈ integerOptions) : ∃ f, c.field = .int f (-1) ∧
    (plainEntries cfgInfo baseInfo).lookup c.drvOption =
      some ((chosen (-1) (cfgInfo.int f) (baseInfo.int f)).map fun i =>
        some (signedDecimal i.toInt)) := by
  have hall : integerOptions = (commandLineOptions.drop 6).take 7 := by decide +kernel
  rw [hall] at hc
  simp only [commandLineOptions, List.drop_succ_cons, List.drop_zero, List.take_succ_cons,
    List.take_zero, List.mem_cons, List.not_mem_nil, or_false] at hc
  rcases hc with rfl | rfl | rfl | rfl | rfl | rfl | rfl
  · exact ⟨.nrIoQueues, rfl, rfl⟩
  · exact ⟨.nrWriteQueues, rfl, rfl⟩
  · exact ⟨.nrPollQueues, rfl, rfl⟩
  · exact ⟨.queueSize, rfl, rfl⟩
  · exact ⟨.keepAliveTmo, rfl, rfl⟩
  · exact ⟨.reconnectDelay, rfl, rfl⟩
  · exact ⟨.ctrlLossTmo, rfl, rfl⟩

theorem plainEntries_nodup : ((plainEntries cfgInfo baseInfo).map (·.1)).Nodup := by
  show (["nr_io_queues", "nr_write_queues", "nr_poll_queues", "queue_size", "keep_alive_tmo",
    "reconnect_delay", "ctrl_loss_tmo", "duplicate_connect", "disable_sqflow", "hdr_digest",
    "data_digest"].map ascii).Nodup
  decide

theorem pastedKey_ne (hc : c ∈ integerOptions) :
    ∀ p ∈ pastedOptions cfgInfo baseInfo snsdHostnqn ctx, p.1 ≠ c.drvOption := by
  have hkeys : ∀ k ∈ ["traddr", "host_traddr", "transport", "trsvcid", "nqn", "hostnqn",
      "hostid"].map ascii, ∀ d ∈ integerOptions, k ≠ d.drvOption := by decide +kernel
  intro p hp
  exact hkeys p.1 (pastedKey_mem p hp) c hc

theorem filter_readPasted {key : Bytes} {ps : List (Bytes × Bytes)} (h : ∀ p ∈ ps, p.1 ≠ key) :
    ((ps.flatMap readPasted).filter (·.1 == key)).map (·.2) = broughtValues key ps := by
  rw [broughtValues, List.filter_flatMap, List.filter_flatMap]
  congr 1
  apply List.flatMap_congr
  intro p hp
  rw [readPasted, readBack, List.filter_cons_of_neg (by simpa using h p hp)]

/-- All the numbers that the string has for an option. -/
theorem valuesOf_integer (hc : c ∈ integerOptions) {f : IntField} (hf : c.field = .int f (-1)) :
    valuesOf c.drvOption ([44].intercalate
        ((allOptions cfgInfo baseInfo snsdHostnqn ctx).map render)) =
      broughtValues c.drvOption (pastedOptions cfgInfo baseInfo snsdHostnqn ctx) ++
        (((chosen (-1) (cfgInfo.int f) (baseInfo.int f)).map fun i =>
            some (signedDecimal i.toInt)).toList ++
          if c.drvOption = ascii "ctrl_loss_tmo" ∧ ¬LossNamed cfgInfo baseInfo snsdHostnqn ctx
          then [some (ascii "1800")] else []) := by
  obtain ⟨g, hg, hlookup⟩ := integer_entry cfgInfo baseInfo hc
  obtain ⟨rfl, -⟩ := OptionField.int.inj (hf.symm.trans hg)
  have hplain : ((present (plainEntries cfgInfo baseInfo)).filter
      (·.1 == c.drvOption)).map (·.2) =
      ((plainEntries cfgInfo baseInfo).lookup c.drvOption).join.toList :=
    filter_present plainEntries_nodup c.drvOption
  rw [hlookup, Option.join_some] at hplain
  rw [valuesOf, parsed_eq, List.filter_append, List.filter_append, List.map_append,
    List.map_append, filter_readPasted (pastedKey_ne hc), hplain]
  congr 2
  simp only [addedOption, search_iff]
  by_cases hloss : LossNamed cfgInfo baseInfo snsdHostnqn ctx
  · rw [if_pos hloss, if_neg fun h => h.2 hloss]
    rfl
  · rw [if_neg hloss]
    by_cases hkey : c.drvOption = ascii "ctrl_loss_tmo"
    · rw [if_pos ⟨hkey, hloss⟩, hkey]
      decide
    · rw [if_neg fun h => hkey h.1, List.filter_cons_of_neg (by simpa using Ne.symm hkey)]
      rfl

theorem signedDecimal_inj {i j : Int32} (h : signedDecimal i.toInt = signedDecimal j.toInt) :
    i = j := by
  rw [← atoi_signedDecimal i, h, atoi_signedDecimal]

/-- A loss timeout that a pasted string brings is found by the search. -/
theorem lossNamed_of_brought {v : Bytes}
    (h : some v ∈ broughtValues (ascii "ctrl_loss_tmo")
      (pastedOptions cfgInfo baseInfo snsdHostnqn ctx)) :
    LossNamed cfgInfo baseInfo snsdHostnqn ctx := by
  obtain ⟨o, ho, hv⟩ := List.mem_map.mp h
  obtain ⟨ho, hkey⟩ := List.mem_filter.mp ho
  obtain ⟨p, hp, hbrought⟩ := List.mem_flatMap.mp ho
  obtain ⟨piece, hpiece, rfl⟩ := List.mem_map.mp hbrought
  have hin : piece <:+: [44].intercalate (p.2.splitOn 44) :=
    infix_intercalate_of_mem (List.mem_of_mem_tail hpiece)
  rw [List.intercalate_splitOn] at hin
  -- the piece has an equal sign, and the key stands before it
  rw [splitOption] at hkey hv
  dsimp only at hkey hv
  split at hv
  · next h61 =>
    refine Or.inr ⟨p, hp, List.IsInfix.trans ?_ hin⟩
    obtain ⟨a, rest, rfl, ha⟩ := List.eq_append_cons_of_mem h61
    rw [beq_iff_eq, takeWhile_append_of_not_mem ha, List.takeWhile_cons_of_neg (by simp),
      List.append_nil] at hkey
    have hname : ascii "ctrl_loss_tmo=" = ascii "ctrl_loss_tmo" ++ [61] := by decide
    rw [hname, ← hkey]
    exact ⟨[], rest, by simp⟩
  · cases hv

/-- The number of the entry arrives, and nothing beside it, unless it is the mark
of an option that is not set. -/
theorem number_arrives_iff (hc : c ∈ integerOptions) {f : IntField} (hf : c.field = .int f (-1)) :
    valuesOf c.drvOption ([44].intercalate
        ((allOptions cfgInfo baseInfo snsdHostnqn ctx).map render)) =
      [some (signedDecimal (cfgInfo.int f).toInt)] ↔
      cfgInfo.int f ≠ -1 ∧
          broughtValues c.drvOption (pastedOptions cfgInfo baseInfo snsdHostnqn ctx) = [] ∨
        cfgInfo.int f = -1 ∧ baseInfo.int f = -1 ∧
          broughtValues c.drvOption (pastedOptions cfgInfo baseInfo snsdHostnqn ctx) =
            [some (ascii "-1")] := by
  have hminus : signedDecimal (-1 : Int32).toInt = ascii "-1" := by decide
  obtain ⟨g, hg, hlookup⟩ := integer_entry cfgInfo baseInfo hc
  obtain ⟨rfl, -⟩ := OptionField.int.inj (hf.symm.trans hg)
  rw [valuesOf_integer hc hf]
  generalize hb : broughtValues c.drvOption
    (pastedOptions cfgInfo baseInfo snsdHostnqn ctx) = brought
  by_cases hset : cfgInfo.int f = -1
  · -- the entry counts as unset
    rw [hset, hminus]
    by_cases hbase : baseInfo.int f = -1
    · have hchosen : chosen (-1) (-1) (baseInfo.int f) = none := by
        rw [chosen, if_neg (not_not.mpr rfl), if_neg (not_not.mpr hbase)]
      rw [hchosen, Option.map_none, Option.toList_none, List.nil_append]
      by_cases hadd : c.drvOption = ascii "ctrl_loss_tmo" ∧
          ¬LossNamed cfgInfo baseInfo snsdHostnqn ctx
      · rw [if_pos hadd]
        constructor
        · intro h
          have hlast := (List.append_eq_singleton_iff.mp h).resolve_right fun hno => by cases hno.2
          exact absurd hlast.2 (by decide)
        · intro h
          obtain ⟨hno, -⟩ | ⟨-, -, hmark⟩ := h
          · exact absurd rfl hno
          · refine absurd (lossNamed_of_brought (v := ascii "-1") ?_) hadd.2
            rw [← hadd.1, hb, hmark]
            exact List.mem_singleton_self _
      · rw [if_neg hadd, List.append_nil]
        constructor
        · exact fun h => Or.inr ⟨rfl, hbase, h⟩
        · intro h
          obtain ⟨hno, -⟩ | ⟨-, -, hmark⟩ := h
          · exact absurd rfl hno
          · exact hmark
    · have hchosen : chosen (-1) (-1) (baseInfo.int f) = some (baseInfo.int f) := by
        rw [chosen, if_neg (not_not.mpr rfl), if_pos hbase]
      rw [hchosen, Option.map_some, Option.toList_some]
      constructor
      · intro h
        have hmem : some (signedDecimal (baseInfo.int f).toInt) ∈ [some (ascii "-1")] := by
          rw [← h]
          simp
        have heq := Option.some.inj (List.mem_singleton.mp hmem)
        rw [← hminus] at heq
        exact absurd (signedDecimal_inj heq) hbase
      · intro h
        obtain ⟨hno, -⟩ | ⟨-, hno, -⟩ := h
        · exact absurd rfl hno
        · exact absurd hno hbase
  · have hchosen : chosen (-1) (cfgInfo.int f) (baseInfo.int f) = some (cfgInfo.int f) := by
      rw [chosen, if_pos hset]
    have hadd : ¬(c.drvOption = ascii "ctrl_loss_tmo" ∧
        ¬LossNamed cfgInfo baseInfo snsdHostnqn ctx) := by
      intro h
      have hloss : (plainEntries cfgInfo baseInfo).lookup (ascii "ctrl_loss_tmo") =
          some (lossOption cfgInfo baseInfo) := rfl
      rw [← h.1, hlookup, hchosen] at hloss
      exact h.2 (Or.inl (by rw [← Option.some.inj hloss]; rfl))
    rw [hchosen, if_neg hadd, List.append_nil, Option.map_some, Option.toList_some]
    constructor
    · intro h
      have hnil := (List.append_eq_singleton_iff.mp h).resolve_right fun hno => by cases hno.2
      exact Or.inl ⟨hset, hnil.1⟩
    · intro h
      obtain ⟨-, hnil⟩ | ⟨hno, -⟩ := h
      · rw [hnil, List.nil_append]
      · exact absurd hno hset

variable (baseInfo snsdHostnqn ctx) in
/-- The string for an entry whose option was read from a text. -/
theorem fillArg_integer (hc : c ∈ integerOptions) {mode : SnsdMode} {line t : Bytes} {e : CfgInfos}
    (he : FromLine mode line e) (ht : stated c line = some t) (argstr : Mem SNSD_BUF_SIZE) :
    ∃ a out, snsdNvmeFillArg argstr e.toCfgFields baseInfo snsdHostnqn ctx = .ok (a, true) ∧
      a.buf.cstr 0 = .ok out ∧
      (valuesOf c.drvOption out = [some (signedDecimal (atoi t).toInt)] ↔
        atoi t ≠ -1 ∧ broughtValues c.drvOption
            (pastedOptions e.toCfgFields baseInfo snsdHostnqn ctx) = [] ∨
          atoi t = -1 ∧ baseInfo.atDefault c.field = true ∧ broughtValues c.drvOption
            (pastedOptions e.toCfgFields baseInfo snsdHostnqn ctx) = [some (ascii "-1")]) := by
  obtain ⟨f, hf, -⟩ := integer_entry e.toCfgFields baseInfo hc
  obtain ⟨hmem, hkind⟩ := List.mem_filter.mp hc
  have hpara : c.checkValidity = .para := by
    rw [Bool.and_eq_true, beq_iff_eq] at hkind
    exact hkind.1
  have hvalue := he.2 c hmem (by rw [hpara]; decide)
  rw [Takes, hf, ht] at hvalue
  have hdefault : baseInfo.atDefault c.field = true ↔ baseInfo.int f = -1 := by
    rw [hf, CfgFields.atDefault, beq_iff_eq]
  obtain ⟨a, out, hfill, hcstr, -, -, rfl⟩ :=
    fillArg_writes e.toCfgFields baseInfo snsdHostnqn ctx argstr
  refine ⟨a, _, hfill, hcstr, ?_⟩
  rw [hdefault, ← (show e.int f = atoi t from hvalue)]
  exact number_arrives_iff hc hf

end

/-- A number that the last item of an entry for an option sets is in the string,
and is all there is for that option, exactly when it is not the mark of an unset
option and no pasted string brings the option along. (A mark that is pasted in
from elsewhere, with nothing set anywhere, arrives too.) -/
theorem written_option_iff {o : Outside} {f : HostnqnFile}
    {head : CfgState → SnsdMode → Bytes} {file : Bytes} {s s' : CfgState}
    (hinit : snsdCfgInit o f head file s = .ok (s', 0)) {mode : SnsdMode} {i : ℕ} {line : Bytes}
    {e : CfgInfos} (hline : (sectionLines mode.sectionName file)[i]? = some line)
    (he : (s'.infoList mode)[i]? = some e) {c : Commandline} (hc : c ∈ integerOptions)
    {t : Bytes} {v : Int32} (ht : stated c line = some t) (hv : atoi t = v)
    (baseInfo : CfgFields) (snsdHostnqn : CStr SNSD_NQN_MAX_LEN) (ctx : Ctx)
    (argstr : Mem SNSD_BUF_SIZE) :
    ∃ a out, snsdNvmeFillArg argstr e.toCfgFields baseInfo snsdHostnqn ctx = .ok (a, true) ∧
      a.buf.cstr 0 = .ok out ∧
      (valuesOf c.drvOption out = [some (signedDecimal v.toInt)] ↔
        v ≠ -1 ∧ broughtValues c.drvOption
            (pastedOptions e.toCfgFields baseInfo snsdHostnqn ctx) = [] ∨
          v = -1 ∧ baseInfo.atDefault c.field = true ∧ broughtValues c.drvOption
            (pastedOptions e.toCfgFields baseInfo snsdHostnqn ctx) = [some (ascii "-1")]) := by
  have hentries := cfgInit_entries hinit mode
  obtain ⟨hi, rfl⟩ := List.getElem?_eq_some_iff.mp hline
  obtain ⟨hi', rfl⟩ := List.getElem?_eq_some_iff.mp he
  rw [← hv]
  exact fillArg_integer baseInfo snsdHostnqn ctx hc (hentries.get hi hi') ht argstr

/-! A switch entry with a queue size, over a base with another. -/

def queueLine (value : Bytes) : Bytes :=
  ascii "host-traddr=10.0.0.1|protocol=tcp|queue-size=" ++ value

def queueFile (value : Bytes) : Bytes :=
  ascii "[BASE]\nhostnqn=a\nqueue-size=64\n[SW]\n" ++ queueLine value ++ ascii "\n[DC]\n"

def queueSize : Commandline :=
  optionalOption "queue-size" (.int .queueSize (-1)) .para "queue_size"

/-- The base record of the file. -/
def queueBase : CfgFields := (snsdInitCfgWithDefault baseCommandLineOptions).setInt .queueSize 64

/-- What `snsd_cfg_init` returns for the file. -/
def initQueueFile (value : Bytes) : Except Fault (CfgState × ℤ) :=
  snsdCfgInit acceptAll ⟨true, true, none⟩ (fun _ _ => []) (queueFile value) clearState

theorem queueFile_lines {value : Bytes} (h : sectionText SnsdMode.sw.sectionName (queueFile value) =
      some (ascii "\n" ++ queueLine value ++ ascii "\n"))
    (hfree : blankFree (ascii "\n" ++ queueLine value ++ ascii "\n") =
      ascii "\n" ++ queueLine value ++ ascii "\n")
    (hnl : ∀ b ∈ queueLine value, isNl b = false) :
    sectionLines SnsdMode.sw.sectionName (queueFile value) = [queueLine value] := by
  have hbreak : ascii "\n" = 10 :: [] := rfl
  have hstart : (queueLine value).dropWhile isSpace = queueLine value := rfl
  have hhead : (queueLine value).head? = some 104 := rfl
  rw [sectionLines, h, Option.map_some, Option.getD_some, hfree, hbreak, List.append_assoc,
    List.cons_append, itemLines_space _ (by decide), List.nil_append,
    itemLines_nl (by decide), itemLines_line hnl, hstart, hhead, if_neg (by decide), itemLines,
    List.append_nil]

/-- An entry of the file. -/
theorem queueFile_entry {value : Bytes} {s : CfgState} (h : initQueueFile value = .ok (s, 0))
    (hlines : sectionLines SnsdMode.sw.sectionName (queueFile value) = [queueLine value]) :
    ∃ e, (s.infoList .sw)[0]? = some e ∧ FromLine .sw (queueLine value) e := by
  have hentries := cfgInit_entries h .sw
  rw [hlines] at hentries
  cases hl : s.infoList .sw with
  | nil =>
    rw [hl] at hentries
    cases hentries
  | cons e es =>
    rw [hl] at hentries
    cases hentries with
    | cons he hes => exact ⟨e, rfl, he⟩

theorem exists_accepted (value : Bytes)
    (h : ((initQueueFile value).map (·.2)).toOption = some 0) :
    ∃ s, initQueueFile value = .ok (s, 0) := by
  cases hr : initQueueFile value with
  | error e =>
    rw [hr] at h
    cases h
  | ok r =>
    rw [hr] at h
    obtain ⟨s, ret⟩ := r
    obtain rfl := Option.some.inj h
    exact ⟨s, rfl⟩

/-- The queue size of the entry arrives. -/
theorem written_option_sample :
    ∃ s e a out, initQueueFile (ascii "32") = .ok (s, 0) ∧ (s.infoList .sw)[0]? = some e ∧
      snsdNvmeFillArg (Mem.zero _) e.toCfgFields queueBase (CStr.clip (by decide) (ascii "a"))
        (rdmaCtx "4420") = .ok (a, true) ∧
      a.buf.cstr 0 = .ok out ∧
      (valuesOf queueSize.drvOption out = [some (signedDecimal (32 : Int32).toInt)] ↔
        (32 : Int32) ≠ -1 ∧ broughtValues queueSize.drvOption (pastedOptions e.toCfgFields
            queueBase (CStr.clip (by decide) (ascii "a")) (rdmaCtx "4420")) = [] ∨
          (32 : Int32) = -1 ∧ queueBase.atDefault queueSize.field = true ∧
            broughtValues queueSize.drvOption (pastedOptions e.toCfgFields queueBase
              (CStr.clip (by decide) (ascii "a")) (rdmaCtx "4420")) = [some (ascii "-1")]) := by
  have hlines : sectionLines SnsdMode.sw.sectionName (queueFile (ascii "32")) =
      [queueLine (ascii "32")] :=
    queueFile_lines (by decide +kernel) (by decide +kernel) (forall_mem_of_all (by decide +kernel))
  obtain ⟨s, hinit⟩ := exists_accepted (ascii "32") (by decide +kernel)
  obtain ⟨e, he, -⟩ := queueFile_entry hinit hlines
  obtain ⟨a, out, hall⟩ := written_option_iff hinit (i := 0)
    (by rw [hlines]; rfl) he (c := queueSize) (by decide) (t := ascii "32") (v := 32)
    (by decide +kernel) (by decide) queueBase (CStr.clip (by decide) (ascii "a"))
    (rdmaCtx "4420") (Mem.zero _)
  exact ⟨s, e, a, out, hinit, he, hall⟩

/-- An entry that sets the queue size to -1 gets the one of the base. -/
theorem minus_one_lost :
    ∃ s e a out, initQueueFile (ascii "-1") = .ok (s, 0) ∧ (s.infoList .sw)[0]? = some e ∧
      stated queueSize (queueLine (ascii "-1")) = some (ascii "-1") ∧
      snsdNvmeFillArg (Mem.zero _) e.toCfgFields queueBase (CStr.clip (by decide) (ascii "a"))
        (rdmaCtx "4420") = .ok (a, true) ∧
      a.buf.cstr 0 = .ok out ∧
      valuesOf queueSize.drvOption out ≠ [some (signedDecimal (-1 : Int32).toInt)] := by
  have hlines : sectionLines SnsdMode.sw.sectionName (queueFile (ascii "-1")) =
      [queueLine (ascii "-1")] :=
    queueFile_lines (by decide +kernel) (by decide +kernel) (forall_mem_of_all (by decide +kernel))
  have hstated : stated queueSize (queueLine (ascii "-1")) = some (ascii "-1") := by
    decide +kernel
  obtain ⟨s, hinit⟩ := exists_accepted (ascii "-1") (by decide +kernel)
  obtain ⟨e, he, hfrom⟩ := queueFile_entry hinit hlines
  obtain ⟨a, out, hfill, hcstr, hiff⟩ := fillArg_integer queueBase
    (CStr.clip (by decide) (ascii "a")) (rdmaCtx "4420") (c := queueSize) (by decide) hfrom hstated
    (Mem.zero _)
  refine ⟨s, e, a, out, hinit, he, hstated, hfill, hcstr, fun h => ?_⟩
  have hset : queueBase.int .queueSize = 64 := CfgFields.setInt_self _ _ _
  rcases hiff.mp h with ⟨hno, -⟩ | ⟨-, hdefault, -⟩
  · exact absurd (by decide) hno
  · rw [queueSize, optionalOption, CfgFields.atDefault, hset] at hdefault
    exact absurd hdefault (by decide)

end NvmeSnsd.ConnNvme
