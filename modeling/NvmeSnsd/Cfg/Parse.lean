import NvmeSnsd.Cfg.Options

/-! Parsing a section whose blanks are out, and reading the whole file. -/
namespace NvmeSnsd.Cfg
open Lib

def SNSD_CFG_NAME_MAX_LEN : ℕ := 127
def SNSD_CFG_VALUE_MAX_LEN : ℕ := 1023
def SNSD_CFG_ITEM_END : ℤ := 0xEF
def SNSD_CFG_SECTION_END : ℤ := 0

/-- `while (isspace(buf[offset]))` in `snsd_skip_invalid_comment`; the flag says
that the end was reached. -/
def skipBlankBody {n : ℕ} (buf : Mem n) (bufsize : ℕ) (s : ℕ × Bool) :
    Except Fault (Ctl (ℕ × Bool)) := do
  if isSpace (← buf.get s.1) then
    if s.1+1 ≥ bufsize then return .done (s.1+1, true)
    return .again (s.1+1, false)
  return .done s

/-- One pass of the `for (;;)`: the offset and what is returned. -/
def skipCommentBody {n : ℕ} (buf : Mem n) (bufsize : ℕ) (s : ℕ × ℤ) :
    Except Fault (Ctl (ℕ × ℤ)) := do
  let r ← loop (skipBlankBody buf bufsize) (bufsize+1) (s.1, false)
  let offset := r.1
  if r.2 then return .done (offset, SNSD_CFG_SECTION_END)
  let comment ← if offset < bufsize then (buf.get offset).map (· == 59) else .ok false
  let offset ← if comment then skipWhile buf bufsize (fun b => !isNl b) offset else .ok offset
  if comment ∧ offset ≥ bufsize then return .done (offset, SNSD_CFG_SECTION_END)
  let b ← buf.get offset
  if !isSpace b && b != 59 then return .done (offset, SNSD_CFG_ITEM_END)
  return .again (offset, 0)

def snsdSkipInvalidComment {n : ℕ} (buf : Mem n) (offset bufsize : ℕ) : Except Fault (ℕ × ℤ) :=
  loop (skipCommentBody buf bufsize) (bufsize+1) (offset, 0)

/-- What ends a word. -/
def isWordEnd (b : UInt8) : Bool := b == 0 || b == 59 || b == 61

/-- The blanks before a word, in `snsd_get_value_word`. -/
def wordBlankBody {n : ℕ} (buf : Mem n) (bufsize : ℕ) (s : ℕ × Bool) :
    Except Fault (Ctl (ℕ × Bool)) := do
  if isSpace (← buf.get s.1) then
    if s.1+1 ≥ bufsize then return .done (s.1+1, true)
    let b ← buf.get (s.1+1)
    if b = 0 ∨ b = 59 then return .done (s.1+1, false)
    return .again (s.1+1, false)
  return .done s

/-- The state of the second loop in `snsd_get_value_word`. -/
structure WordState (k : ℕ) where
  temp : Mem k
  index : ℕ
  offset : ℕ
  ret : ℤ

def wordBody {n k : ℕ} (buf : Mem n) (bufsize : ℕ) (s : WordState k) :
    Except Fault (Ctl (WordState k)) := do
  if s.offset < bufsize then
    let c ← buf.get s.offset
    if isWordEnd c then return .done s
    let temp ← s.temp.store s.index [c]
    if s.index+1 ≥ k then
      let temp ← temp.store (k-1) [0]
      return .done { s with temp := temp, index := s.index+1, ret := -ENOMEM }
    return .again { s with temp := temp, index := s.index+1, offset := s.offset+1 }
  return .done s

/-- `snsd_get_value_word`, where `temp` has `temp_size` bytes. -/
def snsdGetValueWord {n k : ℕ} (buf : Mem n) (offset : ℕ) (temp : Mem k) (bufsize : ℕ) :
    Except Fault (WordState k) := do
  let r ← loop (wordBlankBody buf bufsize) (bufsize+1) (offset, false)
  if r.2 then return ⟨temp, 0, r.1, SNSD_CFG_SECTION_END⟩
  let s ← loop (wordBody buf bufsize) (bufsize+1) ⟨temp, 0, r.1, SNSD_CFG_ITEM_END⟩
  if s.ret ≠ SNSD_CFG_ITEM_END then return s
  let temp ← s.temp.store s.index [0]
  return { s with temp := temp }

/-- `snsd_skip_line`, in which both loops return when they reach the end. -/
def snsdSkipLine {n : ℕ} (buf : Mem n) (offset bufsize : ℕ) : Except Fault (ℕ × ℤ) := do
  if offset ≥ bufsize then return (offset, SNSD_CFG_SECTION_END)
  let offset ← skipWhile buf bufsize (fun b => !isNl b) offset
  if offset ≥ bufsize then return (offset, SNSD_CFG_SECTION_END)
  let offset ← skipWhile buf bufsize isNl offset
  if offset ≥ bufsize then return (offset, SNSD_CFG_SECTION_END)
  return (offset, SNSD_CFG_ITEM_END)

/-- One pass of the loop in `snsd_get_format_num`, for a symbol of one character. -/
def formatNumBody (symbol : UInt8) (s : ℕ × Bytes) : Except Fault (Ctl (ℕ × Bytes)) :=
  match s.2.dropWhile (· != symbol) with
  | [] => .ok (.done s)
  | _ :: rest => .ok (.again (s.1+1, rest))

def snsdGetFormatNum (buffer : Bytes) (symbol : UInt8) : Except Fault ℕ := do
  let s ← loop (formatNumBody symbol) (buffer.length+1) (1, buffer)
  return s.1

/-- `snsd_split_with_symbol`: `*buffer` is the string that it points at. -/
def snsdSplitWithSymbol (tmpInfo : Mem (SNSD_CFG_NAME_MAX_LEN+1)) (buffer : Bytes)
    (symbol : UInt8) : Except Fault (Mem (SNSD_CFG_NAME_MAX_LEN+1) × Bytes × ℤ) := do
  let tmpInfo ← tmpInfo.store 0 (List.replicate (SNSD_CFG_NAME_MAX_LEN+1) 0)
  match buffer.dropWhile (· != symbol) with
  | [] =>
    if SNSD_CFG_NAME_MAX_LEN < buffer.length then return (tmpInfo, buffer, -ENOMEM)
    let tmpInfo ← tmpInfo.store 0 buffer
    return (tmpInfo, buffer, 0)
  | cur :: rest =>
    let len := buffer.length-(cur :: rest).length
    if SNSD_CFG_NAME_MAX_LEN < len then return (tmpInfo, buffer, -ENOMEM)
    let tmpInfo ← tmpInfo.store 0 (buffer.take len)
    return (tmpInfo, rest, 0)

/-- `struct snsd_cfg_item_info`, but for the section name. -/
structure ItemInfo where
  name : Mem (SNSD_CFG_NAME_MAX_LEN+1)
  value : Mem (SNSD_CFG_VALUE_MAX_LEN+1)

/-- What goes along while a section is parsed. -/
structure ParseState where
  item : ItemInfo
  cfg : CfgState

def isBlank (b : UInt8) : Bool := b == 32 || b == 9

def snsdGetItemInfo (o : Outside) (sectionName : Bytes) (tmpInfo : Mem (SNSD_CFG_NAME_MAX_LEN+1))
    (s : ParseState) : Except Fault (ParseState × ℤ) := do
  let len := (← tmpInfo.cstr 0).length
  -- get the left values
  let w ← snsdGetValueWord tmpInfo 0 s.item.name len
  let s := { s with item := { s.item with name := w.temp } }
  if w.ret ≠ SNSD_CFG_ITEM_END then return (s, -EPERM)
  -- skip blank, then the equal sign
  let offset ← skipWhile tmpInfo (SNSD_CFG_NAME_MAX_LEN+1) isBlank w.offset
  if (← tmpInfo.get offset) ≠ 61 then return (s, -EPERM)
  -- get the right values
  let w ← snsdGetValueWord tmpInfo (offset+1) s.item.value len
  let s := { s with item := { s.item with value := w.temp } }
  if w.ret ≠ SNSD_CFG_ITEM_END then return (s, -EPERM)
  let (cfg, ret) ← snsdSaveOneItem o sectionName (← s.item.name.cstr 0) (← s.item.value.cstr 0) s.cfg
  if ret ≠ 0 then return ({ s with cfg := cfg }, -EPERM)
  return ({ s with cfg := cfg }, 0)

/-- The loop over the `num` items of a line. -/
def formatInfoLoop (o : Outside) (sectionName : Bytes) (symbol : UInt8) :
    ℕ → Mem (SNSD_CFG_NAME_MAX_LEN+1) → Bytes → ParseState → Except Fault (ParseState × ℤ)
  | 0, _, _, s => .ok (s, 0)
  | num+1, tmpInfo, buffer, s => do
    let (tmpInfo, buffer, ret) ← snsdSplitWithSymbol tmpInfo buffer symbol
    if ret ≠ 0 then return (s, ret)
    let (s, ret) ← snsdGetItemInfo o sectionName tmpInfo s
    if ret ≠ 0 then return (s, ret)
    formatInfoLoop o sectionName symbol num tmpInfo buffer s

/-- `snsd_get_format_info`; `tmp_info` is written before it is read. -/
def snsdGetFormatInfo (o : Outside) (sectionName buffer : Bytes) (symbol : UInt8)
    (s : ParseState) : Except Fault (ParseState × ℤ) := do
  let num ← snsdGetFormatNum buffer symbol
  let s := { s with cfg := snsdInitCfg s.cfg }
  let (s, ret) ← formatInfoLoop o sectionName symbol num (Mem.zero _) buffer s
  if ret ≠ 0 then return (s, ret)
  let (cfg, ret) := snsdAddOneCfg sectionName s.cfg
  if ret ≠ 0 then return ({ s with cfg := cfg }, -EPERM)
  return ({ s with cfg := cfg }, 0)

/-- The state of the copying loop in `snsd_split_with_sign`. -/
structure LineState where
  tmpLine : Mem SNSD_CFG_VALUE_MAX_LEN
  tmpIndex : ℕ
  loop : ℕ

def splitSignBody {n : ℕ} (sectionBuf : Mem n) (sectionLength : ℕ) (s : LineState) :
    Except Fault (Ctl LineState) := do
  if s.loop < sectionLength then
    let c ← sectionBuf.get s.loop
    if isNl c then return .done s
    let tmpLine ← s.tmpLine.store s.tmpIndex [c]
    return .again ⟨tmpLine, s.tmpIndex+1, s.loop+1⟩
  return .done s

/-- `snsd_split_with_sign`; nothing of `tmp_line` is read that was not written. -/
def snsdSplitWithSign {n : ℕ} (o : Outside) (sectionName : Bytes) (sectionBuf : Mem n)
    (sectionLength loop : ℕ) (s : ParseState) : Except Fault (ParseState × ℕ × ℤ) := do
  let l ← Lib.loop (splitSignBody sectionBuf sectionLength) (sectionLength+1) ⟨Mem.zero _, 0, loop⟩
  let tmpLine ← l.tmpLine.store l.tmpIndex [0]
  let (s, ret) ← snsdGetFormatInfo o sectionName (← tmpLine.cstr 0) 124 s
  if ret ≠ 0 then return (s, l.loop, -EPERM)
  return (s, l.loop, 0)

/-- The state of the loop in `snsd_section_parse`. -/
structure SectionState where
  loop : ℕ
  cfg : CfgState
  ret : ℤ

def sectionParseBody {n : ℕ} (o : Outside) (sectionName : Bytes) (sectionBuf : Mem n)
    (sectionLength : ℕ) (s : SectionState) : Except Fault (Ctl SectionState) := do
  if s.loop < sectionLength then
    let item : ItemInfo := ⟨Mem.zero _, Mem.zero _⟩
    let (loop, ret) ← snsdSkipInvalidComment sectionBuf s.loop sectionLength
    if ret = SNSD_CFG_SECTION_END then return .done ⟨loop, s.cfg, 0⟩
    if ret ≠ SNSD_CFG_ITEM_END then return .done ⟨loop, s.cfg, -EPERM⟩
    let (p, loop, ret) ← snsdSplitWithSign o sectionName sectionBuf sectionLength loop ⟨item, s.cfg⟩
    if ret ≠ 0 then return .done ⟨loop, p.cfg, -EPERM⟩
    -- ignore residue of current line
    let (loop, ret) ← snsdSkipLine sectionBuf loop sectionLength
    if ret = SNSD_CFG_SECTION_END then return .done ⟨loop, p.cfg, 0⟩
    if ret ≠ SNSD_CFG_ITEM_END then return .done ⟨loop, p.cfg, -EPERM⟩
    return .again ⟨loop, p.cfg, 0⟩
  return .done s

def snsdSectionParse {n : ℕ} (o : Outside) (sectionName : Bytes) (sectionBuf : Mem n)
    (sectionLength : ℕ) (s : CfgState) : Except Fault (CfgState × ℤ) := do
  let r ← loop (sectionParseBody o sectionName sectionBuf sectionLength) (sectionLength+1) ⟨0, s, 0⟩
  return (r.cfg, r.ret)

def snsdGetSectionInfo (o : Outside) (file sectionName : Bytes) (s : CfgState) :
    Except Fault (CfgState × ℤ) := do
  match ← snsdSectionLoad file sectionName with
  | none => return (s, -EPERM)
  | some (sectionBuf, sectionLength) =>
    let (sectionBuf, sectionLength) ← snsdDelBlank sectionBuf sectionLength
    let (s, ret) ← snsdSectionParse o sectionName sectionBuf sectionLength s
    if ret ≠ 0 then return (s, -EPERM)
    return (s, 0)

/-- `/etc/nvme/hostnqn`: whether it is readable, whether it can be generated when
it is not, and its first line then. -/
structure HostnqnFile where
  readable : Bool
  generated : Bool
  line : Option (CStr SNSD_NQN_MAX_LEN)

/-- `snsd_hostnqn_init`: the file matters when the base section sets no name. -/
def snsdHostnqnInit (f : HostnqnFile) (s : CfgState) : Except Fault (CfgState × ℤ) := do
  if !f.readable && !f.generated then return (s, -EPERM)
  if (← s.snsdHostnqn.cstr 0) = [] then
    match f.line with
    | none => return (s, -EPERM)
    | some line =>
      let hostnqn ← s.snsdHostnqn.store 0 (line.text.takeWhile (· != 10))
      return ({ s with snsdHostnqn := hostnqn }, 0)
  return (s, 0)

/-- `snsd_check_single`. The inner loop runs over the ring of the list from an
entry back to it, and so over the list head too: `head` is what is read there as
a host address. -/
def snsdCheckSingle (s : CfgState) (head : Bytes) (list : List CfgInfos) (mode : SnsdMode) : Bool :=
  list.zipIdx.all fun (item, i) =>
    !(s.anyflag == .yes && mode == .sw && (item.str .hostTraddr).text != SNSD_SW_ANY) &&
      !(head == (item.str .hostTraddr).text ||
        (list.eraseIdx i).any fun cur => (cur.str .hostTraddr).text == (item.str .hostTraddr).text)

def snsdCheckBoth (s : CfgState) : Bool :=
  s.swInfoList.all fun sw => s.dcInfoList.all fun dc =>
    (sw.str .hostTraddr).text != (dc.str .hostTraddr).text

/-- `snsd_check_conflict`; `head` says what stands behind the head of a list. -/
def snsdCheckConflict (head : CfgState → SnsdMode → Bytes) (s : CfgState) : Bool :=
  snsdCheckSingle s (head s .sw) s.swInfoList .sw &&
    snsdCheckSingle s (head s .dc) s.dcInfoList .dc && snsdCheckBoth s

def snsdCfgFreeSpace (s : CfgState) : CfgState := { s with swInfoList := [], dcInfoList := [] }

/-- `snsd_cfg_init`, with the globals as they are left. -/
def snsdCfgInit (o : Outside) (f : HostnqnFile) (head : CfgState → SnsdMode → Bytes) (file : Bytes)
    (s : CfgState) : Except Fault (CfgState × ℤ) := do
  let s := { s with swInfoList := [], dcInfoList := [], snsdHostnqn := Mem.zero _ }
  let s := snsdInitBaseCfg s
  let (s, ret) ← snsdGetSectionInfo o file SNSD_SECTION_BASE_NAME s
  if ret ≠ 0 then return (s, -EPERM)
  let (s, ret) ← snsdGetSectionInfo o file SNSD_SECTION_SW_NAME s
  if ret ≠ 0 then return (snsdCfgFreeSpace s, -EPERM)
  let (s, ret) ← snsdGetSectionInfo o file SNSD_SECTION_DC_NAME s
  if ret ≠ 0 then return (snsdCfgFreeSpace s, -EPERM)
  let (s, ret) ← snsdHostnqnInit f s
  if ret ≠ 0 then return (snsdCfgFreeSpace s, -EPERM)
  if !snsdCheckConflict head s then return (snsdCfgFreeSpace s, -EPERM)
  return (s, 0)

end NvmeSnsd.Cfg
