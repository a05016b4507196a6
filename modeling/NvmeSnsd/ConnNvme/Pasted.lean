import NvmeSnsd.ConnNvme.Discovery
import NvmeSnsd.ConnNvme.FillArgSpec

/-! The options that the kernel reads when the strings in the argument string
have separators of their own. -/
namespace NvmeSnsd.ConnNvme
open Lib Cfg

/-! One option. -/

/-- The options that a value brings along: all behind its first comma. -/
def broughtBy (value : Bytes) : List (Bytes × Option Bytes) :=
  (value.splitOn 44).tail.map splitOption

/-- What is read of an option whose value may have commas in it. -/
def readBack : Bytes × Option Bytes → List (Bytes × Option Bytes)
  | (key, some value) => (key, some (value.takeWhile (· != 44))) :: broughtBy value
  | (key, none) => [(key, none)]

theorem broughtBy_clean {value : Bytes} (h : 44 ∉ value) : broughtBy value = [] := by
  rw [broughtBy, List.splitOn_eq_singleton h]
  rfl

theorem takeWhile_comma {value : Bytes} (h : 44 ∉ value) : value.takeWhile (· != 44) = value := by
  apply List.takeWhile_eq_self_iff.mpr
  intro b hb
  rw [bne_iff_ne]
  rintro rfl
  exact h hb

theorem readBack_clean {o : Bytes × Option Bytes} (h : CleanOption o) : readBack o = [o] := by
  obtain ⟨key, value⟩ := o
  cases value with
  | none => rfl
  | some v =>
    have hv := (h.value v rfl).1
    rw [readBack, takeWhile_comma hv, broughtBy_clean hv]

theorem split_render {o : Bytes × Option Bytes} (h : 44 ∉ o.1 ∧ 61 ∉ o.1) :
    ((render o).splitOn 44).map splitOption = readBack o := by
  obtain ⟨key, value⟩ := o
  cases value with
  | none =>
    have hrender : render (key, none) = key := rfl
    have hread := splitOption_render (o := (key, none)) h.2
    rw [hrender] at hread
    rw [hrender, List.splitOn_eq_singleton h.1, List.map_singleton, hread, readBack]
  | some v =>
    have hhead (w : Bytes) : splitOption (key ++ 61 :: w) = (key, some w) :=
      splitOption_render (o := (key, some w)) h.2
    rw [render, readBack]
    by_cases hv : 44 ∈ v
    · -- the first part keeps the key, and the others stand for themselves
      obtain ⟨a, rest, rfl, ha⟩ := List.eq_append_cons_of_mem hv
      have hfirst : 44 ∉ key ++ 61 :: a := by
        simp only [List.mem_append, List.mem_cons, not_or]
        exact ⟨h.1, by decide, ha⟩
      have hsplit : (key ++ 61 :: (a ++ 44 :: rest)) = (key ++ 61 :: a) ++ 44 :: rest := by
        rw [List.append_assoc, List.cons_append]
      rw [hsplit, List.splitOn_append_cons_self_of_not_mem hfirst, List.map_cons, hhead,
        broughtBy, List.splitOn_append_cons_self_of_not_mem ha, List.tail_cons,
        takeWhile_append_stop (by decide), takeWhile_comma ha]
    · have hwhole : 44 ∉ key ++ 61 :: v := by
        simp only [List.mem_append, List.mem_cons, not_or]
        exact ⟨h.1, by decide, hv⟩
      rw [List.splitOn_eq_singleton hwhole, List.map_singleton, hhead, broughtBy_clean hv,
        takeWhile_comma hv]

/-- Each option is read by itself. -/
theorem parseOptions_readBack {opts : List (Bytes × Option Bytes)} (hne : opts ≠ [])
    (hkeys : ∀ o ∈ opts, 44 ∉ o.1 ∧ 61 ∉ o.1) :
    parseOptions ([44].intercalate (opts.map render)) = opts.flatMap readBack := by
  rw [parseOptions, splitOn_intercalate_flatMap (by simpa using hne), List.flatMap_map,
    List.map_flatMap]
  apply List.flatMap_congr
  intro o ho
  exact split_render (hkeys o ho)

/-! The strings of one connection, and what is printed for itself. -/

section
variable (cfgInfo baseInfo : CfgFields) (snsdHostnqn : CStr SNSD_NQN_MAX_LEN) (ctx : Ctx)

/-- The strings that are pasted in, each with its key. -/
def pastedOptions : List (Bytes × Bytes) :=
  [(ascii "traddr", ctx.traddr.text), (ascii "host_traddr", ctx.hostTraddr.text),
    (ascii "transport", ctx.transport.text), (ascii "trsvcid", ctx.trsvcid.text),
    (ascii "nqn", ctx.subsysnqn.text),
    (ascii "hostnqn", if (cfgInfo.str .hostnqn).text ≠ invalid
      then (cfgInfo.str .hostnqn).text else snsdHostnqn.text)] ++
  ((chosen invalid (cfgInfo.str .hostid).text (baseInfo.str .hostid).text).map fun t =>
    (ascii "hostid", t)).toList

/-- The numbers and the flags. -/
def plainEntries : List (Bytes × Option (Option Bytes)) :=
  let int (f : IntField) := chosen (-1) (cfgInfo.int f) (baseInfo.int f)
  let number (i : Int32) := some (signedDecimal i.toInt)
  [(ascii "nr_io_queues", (int .nrIoQueues).map number),
    (ascii "nr_write_queues", (int .nrWriteQueues).map number),
    (ascii "nr_poll_queues", (int .nrPollQueues).map number),
    (ascii "queue_size", (int .queueSize).map number),
    (ascii "keep_alive_tmo", (int .keepAliveTmo).map number),
    (ascii "reconnect_delay", (int .reconnectDelay).map number),
    (ascii "ctrl_loss_tmo", lossOption cfgInfo baseInfo)] ++ flagEntries cfgInfo baseInfo

theorem printed_eq : printed cfgInfo baseInfo snsdHostnqn ctx =
    (pastedOptions cfgInfo baseInfo snsdHostnqn ctx).map (fun p => (p.1, some p.2)) ++
      present (plainEntries cfgInfo baseInfo) := by
  rw [printed, entries, valueEntries, pastedOptions, plainEntries]
  cases chosen invalid (cfgInfo.str .hostid).text (baseInfo.str .hostid).text <;> rfl

/-- A loss timeout is configured, or a pasted string names one. -/
def LossNamed : Prop :=
  (lossOption cfgInfo baseInfo).isSome = true ∨
    ∃ p ∈ pastedOptions cfgInfo baseInfo snsdHostnqn ctx, ascii "ctrl_loss_tmo=" <:+: p.2

instance : Decidable (LossNamed cfgInfo baseInfo snsdHostnqn ctx) :=
  inferInstanceAs (Decidable (_ ∨ _))

end

section
variable {cfgInfo baseInfo : CfgFields} {snsdHostnqn : CStr SNSD_NQN_MAX_LEN} {ctx : Ctx}

theorem clean_plain : ∀ o ∈ present (plainEntries cfgInfo baseInfo), CleanOption o := by
  apply clean_present
  simp only [plainEntries, flagEntries, lossOption, List.cons_append, List.nil_append]
  iterate 7 refine List.forall_mem_cons.mpr ⟨clean_number (by decide), ?_⟩
  iterate 4 refine List.forall_mem_cons.mpr ⟨clean_flag (by decide), ?_⟩
  exact List.forall_mem_nil _

theorem pastedKey_mem : ∀ p ∈ pastedOptions cfgInfo baseInfo snsdHostnqn ctx,
    p.1 ∈ ["traddr", "host_traddr", "transport", "trsvcid", "nqn", "hostnqn",
      "hostid"].map ascii := by
  intro p hp
  rcases List.mem_append.mp hp with hp | hp
  · have hfirst : ∀ k ∈ ["traddr", "host_traddr", "transport", "trsvcid", "nqn",
        "hostnqn"].map ascii, k ∈ ["traddr", "host_traddr", "transport", "trsvcid", "nqn",
        "hostnqn", "hostid"].map ascii := by decide
    exact hfirst _ (List.mem_map_of_mem (f := Prod.fst) hp)
  · obtain ⟨t, -, rfl⟩ := Option.map_eq_some_iff.mp (Option.mem_toList.mp hp)
    change ascii "hostid" ∈ _
    decide

theorem plain_pastedKeys : ∀ p ∈ pastedOptions cfgInfo baseInfo snsdHostnqn ctx,
    44 ∉ p.1 ∧ 61 ∉ p.1 := by
  have hkeys : ∀ k ∈ ["traddr", "host_traddr", "transport", "trsvcid", "nqn", "hostnqn",
      "hostid"].map ascii, 44 ∉ k ∧ 61 ∉ k := by decide
  exact fun p hp => hkeys p.1 (pastedKey_mem p hp)

theorem plain_allKeys : ∀ o ∈ allOptions cfgInfo baseInfo snsdHostnqn ctx,
    44 ∉ o.1 ∧ 61 ∉ o.1 := by
  intro o ho
  rcases List.mem_append.mp ho with ho | ho
  · rw [printed_eq] at ho
    rcases List.mem_append.mp ho with ho | ho
    · obtain ⟨p, hp, rfl⟩ := List.mem_map.mp ho
      exact plain_pastedKeys p hp
    · exact (clean_plain o ho).key
  · rw [addedOption] at ho
    split at ho
    · cases ho
    · rw [List.mem_singleton.mp ho]
      decide

/-- The search over the whole string. -/
theorem search_iff : ascii "ctrl_loss_tmo=" <:+: printedText cfgInfo baseInfo snsdHostnqn ctx ↔
    LossNamed cfgInfo baseInfo snsdHostnqn ctx := by
  have hkey : ascii "ctrl_loss_tmo=" = ascii "ctrl_loss_tmo" ++ [61] := by decide
  constructor
  · intro h
    cases hloss : lossOption cfgInfo baseInfo with
    | some w => exact Or.inl (by rw [hloss, Option.isSome_some])
    | none =>
      -- no key ends in the name, so it is in a value
      rw [printedText, hkey] at h
      obtain ⟨l, hl, hi⟩ := infix_intercalate (by simp) (by decide) h
      obtain ⟨o, ho, rfl⟩ := List.mem_map.mp hl
      have hno : ¬ascii "ctrl_loss_tmo" <:+ o.1 := by
        rw [printed, hloss] at ho
        exact no_loss_suffix ho
      rw [printed_eq] at ho
      rcases List.mem_append.mp ho with ho | ho
      · obtain ⟨p, hp, rfl⟩ := List.mem_map.mp ho
        have hvalue := (infix_concat_sep (by decide) (plain_pastedKeys p hp).2).mp hi
        exact Or.inr ⟨p, hp, by rw [hkey]; exact hvalue.resolve_left hno⟩
      · exfalso
        have hclean := clean_plain o ho
        obtain ⟨k, value⟩ := o
        cases value with
        | none => exact hclean.key.2 (hi.subset (by simp))
        | some v =>
          have hvalue := (infix_concat_sep (by decide) hclean.key.2).mp hi
          exact (hclean.value v rfl).2 ((hvalue.resolve_left hno).subset (by simp))
  · intro h
    rcases h with h | ⟨p, hp, h⟩
    · exact loss_printed h
    · have hmem : (p.1, some p.2) ∈ printed cfgInfo baseInfo snsdHostnqn ctx := by
        rw [printed_eq]
        exact List.mem_append_left _ (List.mem_map_of_mem (f := fun p => (p.1, some p.2)) hp)
      have hrender : p.2 <:+: render (p.1, some p.2) := ⟨p.1 ++ [61], [], by simp [render]⟩
      exact (h.trans hrender).trans (infix_intercalate_of_mem (List.mem_map_of_mem hmem))

/-- What a pasted option comes to. -/
def readPasted (p : Bytes × Bytes) : List (Bytes × Option Bytes) := readBack (p.1, some p.2)

/-- The values that the pasted strings bring for a key. -/
def broughtValues (key : Bytes) (pasted : List (Bytes × Bytes)) : List (Option Bytes) :=
  ((pasted.flatMap fun p => broughtBy p.2).filter (·.1 == key)).map (·.2)

theorem broughtValues_cons (key : Bytes) (p : Bytes × Bytes) (ps : List (Bytes × Bytes)) :
    broughtValues key (p :: ps) =
      ((broughtBy p.2).filter (·.1 == key)).map (·.2) ++ broughtValues key ps := by
  rw [broughtValues, List.flatMap_cons, List.filter_append, List.map_append, broughtValues]

/-- The values of a key in pasted strings: its own, and what they bring. -/
theorem readPasted_values (key : Bytes) (ps : List (Bytes × Bytes)) :
    (((ps.flatMap readPasted).filter (·.1 == key)).map (·.2)).Perm
      ((ps.filter (·.1 == key)).map (fun p => some (p.2.takeWhile (· != 44))) ++
        broughtValues key ps) := by
  induction ps with
  | nil => exact .nil
  | cons p ps ih =>
    rw [List.flatMap_cons, List.filter_append, List.map_append, broughtValues_cons, readPasted,
      readBack]
    have hrest := ih.append_left (((broughtBy p.2).filter (·.1 == key)).map (·.2))
    rw [← List.append_assoc] at hrest
    have hswap := hrest.trans ((List.perm_append_comm.append_right _).trans
      (List.Perm.of_eq (List.append_assoc _ _ _)))
    by_cases hkey : p.1 = key
    · rw [List.filter_cons_of_pos (by simpa using hkey), List.filter_cons_of_pos (by simpa using hkey)]
      exact hswap.cons _
    · rw [List.filter_cons_of_neg (by simpa using hkey), List.filter_cons_of_neg (by simpa using hkey)]
      exact hswap

/-- All that the kernel reads. -/
theorem parsed_eq :
    parseOptions ([44].intercalate ((allOptions cfgInfo baseInfo snsdHostnqn ctx).map render)) =
      (pastedOptions cfgInfo baseInfo snsdHostnqn ctx).flatMap readPasted ++
        (present (plainEntries cfgInfo baseInfo) ++
          addedOption (printedText cfgInfo baseInfo snsdHostnqn ctx)) := by
  have hne : allOptions cfgInfo baseInfo snsdHostnqn ctx ≠ [] := by
    simp [allOptions, printed, headOptions]
  have hplain : (present (plainEntries cfgInfo baseInfo)).flatMap readBack =
      present (plainEntries cfgInfo baseInfo) := by
    rw [List.flatMap_congr fun o ho => readBack_clean (clean_plain o ho), List.flatMap_singleton']
  have hadded (text : Bytes) : (addedOption text).flatMap readBack = addedOption text := by
    rw [addedOption]
    split
    · rfl
    · decide
  rw [parseOptions_readBack hne plain_allKeys, allOptions, printed_eq, List.flatMap_append,
    List.flatMap_append, List.flatMap_map, hplain, hadded, List.append_assoc]
  rfl

end

/-! What a target can bring in with its NQN. -/

/-- The context with the NQN of a record of the discovery log in it. -/
def Ctx.supplied (ctx : Ctx) (subnqn : Mem NVMF_NQN_FIELD_LEN) : Ctx :=
  { ctx with subsysnqn := CStr.clip SNSD_NQN_MAX_LEN_pos subnqn.bytes }

/-- What the kernel reads apart from the NQN. -/
def otherOptions (out : Bytes) : List (Bytes × Option Bytes) :=
  (parseOptions out).filter (·.1 != ascii "nqn")

section
variable (cfgInfo baseInfo : CfgFields) (snsdHostnqn : CStr SNSD_NQN_MAX_LEN) (ctx : Ctx)

/-- What depends on the NQN among it: the options behind its first comma, and
the default that is there as long as nothing names a loss timeout. -/
def contributed : List (Bytes × Option Bytes) :=
  (broughtBy ctx.subsysnqn.text).filter (·.1 != ascii "nqn") ++
    if LossNamed cfgInfo baseInfo snsdHostnqn ctx then []
    else [(ascii "ctrl_loss_tmo", some (ascii "1800"))]

/-- The other strings that are pasted in. -/
def pastedBeside : List (Bytes × Bytes) :=
  (pastedOptions cfgInfo baseInfo snsdHostnqn ctx).eraseIdx 4

/-- What does not depend on the NQN. -/
def besideNqn : List (Bytes × Option Bytes) :=
  ((pastedBeside cfgInfo baseInfo snsdHostnqn ctx).flatMap readPasted ++
    present (plainEntries cfgInfo baseInfo)).filter (·.1 != ascii "nqn")

theorem otherOptions_perm :
    (otherOptions ([44].intercalate
        ((allOptions cfgInfo baseInfo snsdHostnqn ctx).map render))).Perm
      (besideNqn cfgInfo baseInfo snsdHostnqn ctx ++
        contributed cfgInfo baseInfo snsdHostnqn ctx) := by
  have hpasted : (pastedOptions cfgInfo baseInfo snsdHostnqn ctx).Perm
      (pastedBeside cfgInfo baseInfo snsdHostnqn ctx ++ [(ascii "nqn", ctx.subsysnqn.text)]) := by
    have hmiddle : pastedOptions cfgInfo baseInfo snsdHostnqn ctx =
        (pastedBeside cfgInfo baseInfo snsdHostnqn ctx).take 4 ++
          (ascii "nqn", ctx.subsysnqn.text) ::
            (pastedBeside cfgInfo baseInfo snsdHostnqn ctx).drop 4 := rfl
    rw [hmiddle]
    apply List.perm_middle.trans
    rw [List.take_append_drop]
    exact (List.perm_append_singleton _ _).symm
  have hnqn : (readPasted (ascii "nqn", ctx.subsysnqn.text)).filter (·.1 != ascii "nqn") =
      (broughtBy ctx.subsysnqn.text).filter (·.1 != ascii "nqn") := by
    rw [readPasted, readBack, List.filter_cons_of_neg (by simp)]
  have hadded : (addedOption (printedText cfgInfo baseInfo snsdHostnqn ctx)).filter
      (·.1 != ascii "nqn") = if LossNamed cfgInfo baseInfo snsdHostnqn ctx then []
        else [(ascii "ctrl_loss_tmo", some (ascii "1800"))] := by
    simp only [addedOption, search_iff]
    split
    · rfl
    · decide
  rw [otherOptions, parsed_eq, besideNqn, contributed, ← hnqn, ← hadded]
  simp only [← List.filter_append]
  apply List.Perm.filter
  refine ((hpasted.flatMap_right readPasted).append_right _).trans ?_
  rw [List.flatMap_append, List.flatMap_singleton]
  simp only [List.append_assoc]
  apply List.Perm.append_left
  simp only [← List.append_assoc]
  exact List.perm_append_comm.append_right _

theorem fillArg_others (argstr : Mem SNSD_BUF_SIZE) :
    ∃ a out, snsdNvmeFillArg argstr cfgInfo baseInfo snsdHostnqn ctx = .ok (a, true) ∧
      a.buf.cstr 0 = .ok out ∧ (otherOptions out).Perm (besideNqn cfgInfo baseInfo snsdHostnqn ctx ++
        contributed cfgInfo baseInfo snsdHostnqn ctx) := by
  obtain ⟨a, out, hfill, hcstr, -, -, rfl⟩ :=
    fillArg_writes cfgInfo baseInfo snsdHostnqn ctx argstr
  exact ⟨a, _, hfill, hcstr, otherOptions_perm cfgInfo baseInfo snsdHostnqn ctx⟩

/-- Two NQNs leave the other options alike exactly when they contribute the same. -/
theorem nqn_injects_iff (argstr argstr' : Mem SNSD_BUF_SIZE)
    (subnqn subnqn' : Mem NVMF_NQN_FIELD_LEN) :
    ∃ a out a' out',
      snsdNvmeFillArg argstr cfgInfo baseInfo snsdHostnqn (ctx.supplied subnqn) = .ok (a, true) ∧
      a.buf.cstr 0 = .ok out ∧
      snsdNvmeFillArg argstr' cfgInfo baseInfo snsdHostnqn (ctx.supplied subnqn') =
        .ok (a', true) ∧
      a'.buf.cstr 0 = .ok out' ∧
      ((otherOptions out).Perm (otherOptions out') ↔
        (contributed cfgInfo baseInfo snsdHostnqn (ctx.supplied subnqn)).Perm
          (contributed cfgInfo baseInfo snsdHostnqn (ctx.supplied subnqn'))) := by
  obtain ⟨a, out, hfill, hcstr, hperm⟩ :=
    fillArg_others cfgInfo baseInfo snsdHostnqn (ctx.supplied subnqn) argstr
  obtain ⟨a', out', hfill', hcstr', hperm'⟩ :=
    fillArg_others cfgInfo baseInfo snsdHostnqn (ctx.supplied subnqn') argstr'
  refine ⟨a, out, a', out', hfill, hcstr, hfill', hcstr', ?_⟩
  -- what stands beside the NQN is the same in both
  have hbeside : besideNqn cfgInfo baseInfo snsdHostnqn (ctx.supplied subnqn) =
      besideNqn cfgInfo baseInfo snsdHostnqn (ctx.supplied subnqn') := rfl
  rw [hbeside] at hperm
  constructor
  · intro h
    exact (List.perm_append_left_iff _).mp ((hperm.symm.trans h).trans hperm')
  · intro h
    exact (hperm.trans (h.append_left _)).trans hperm'.symm

end

/-- The field of a record that holds `text`. -/
def nqnField (text : Bytes) : Mem NVMF_NQN_FIELD_LEN := (Mem.zero _).write 0 text

/-- A target that brings a queue size in. -/
theorem nqn_brings_option :
    ∃ a out a' out',
      snsdNvmeFillArg (Mem.zero _) unsetFields unsetFields
        (CStr.clip (by decide) (ascii "nqn.2020-02.host"))
        ((rdmaCtx "4420").supplied (nqnField (ascii "a,queue_size=1"))) = .ok (a, true) ∧
      a.buf.cstr 0 = .ok out ∧
      snsdNvmeFillArg (Mem.zero _) unsetFields unsetFields
        (CStr.clip (by decide) (ascii "nqn.2020-02.host"))
        ((rdmaCtx "4420").supplied (nqnField (ascii "a"))) = .ok (a', true) ∧
      a'.buf.cstr 0 = .ok out' ∧ ¬(otherOptions out).Perm (otherOptions out') := by
  obtain ⟨a, out, hfill, hcstr, hperm⟩ := fillArg_others unsetFields unsetFields
    (CStr.clip (by decide) (ascii "nqn.2020-02.host"))
    ((rdmaCtx "4420").supplied (nqnField (ascii "a,queue_size=1"))) (Mem.zero _)
  obtain ⟨a', out', hfill', hcstr', hperm'⟩ := fillArg_others unsetFields unsetFields
    (CStr.clip (by decide) (ascii "nqn.2020-02.host"))
    ((rdmaCtx "4420").supplied (nqnField (ascii "a"))) (Mem.zero _)
  refine ⟨a, out, a', out', hfill, hcstr, hfill', hcstr', fun h => ?_⟩
  have hlen := ((hperm.symm.trans h).trans hperm').length_eq
  revert hlen
  decide +kernel

end NvmeSnsd.ConnNvme
