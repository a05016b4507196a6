import NvmeSnsd.Lib.Scan

/-! Finding a section in the configuration file, and taking the blanks out of
it. The file is a regular file, so that a read fails only at its end. -/
namespace NvmeSnsd.Cfg
open Lib

def SNSD_MAX_SECTION_NAME_LEN : ℕ := 32
def SNSD_CFG_FILE_MAX_SIZE : ℕ := 8192
def EIO : ℤ := 5
def ENOMEM : ℤ := 12

/-- The state of the loop in `snsd_read_section_name`. -/
structure NameRead where
  buf : Mem SNSD_MAX_SECTION_NAME_LEN
  pos : ℕ
  loop : ℕ
  ret : ℤ

def readNameBody (file : Bytes) (s : NameRead) : Except Fault (Ctl NameRead) := do
  if s.loop < SNSD_MAX_SECTION_NAME_LEN then
    match file[s.pos]? with
    | none => return .done { s with ret := - EIO }
    | some c =>
      let buf ← s.buf.store s.loop [c]
      -- read until `]`
      if c = 93 then
        let buf ← buf.store s.loop [0]
        return .done { s with buf := buf, pos := s.pos+1, ret := 0 }
      return .again { s with buf := buf, pos := s.pos+1, loop := s.loop+1 }
  else return .done { s with ret := -ENOMEM }

/-- `snsd_read_section_name` at position `pos` of the file. -/
def snsdReadSectionName (file : Bytes) (sectionNameBuf : Mem SNSD_MAX_SECTION_NAME_LEN) (pos : ℕ) :
    Except Fault NameRead :=
  loop (readNameBody file) (SNSD_MAX_SECTION_NAME_LEN+1) ⟨sectionNameBuf, pos, 0, 0⟩

/-- The state of the loop in `snsd_read_section`; `n` is the size of
`section_buff`. -/
structure SectionRead (n : ℕ) where
  buff : Mem n
  pos : ℕ
  loop : ℕ
  len : ℕ
  ret : ℤ

def readSectionBody {n : ℕ} (file : Bytes) (s : SectionRead n) :
    Except Fault (Ctl (SectionRead n)) := do
  if s.loop < file.length then
    let buff ← match file[s.pos]? with
      | some c => s.buff.store s.loop [c]
      | none => .ok s.buff
    -- read until `[`, where the next section starts; at the end of the file
    -- this looks at what was in the buffer before
    if (← buff.get s.loop) = 91 then
      let buff ← buff.store s.loop [0]
      return .done { s with buff := buff, pos := s.pos+1, len := s.loop, ret := 0 }
    if file[s.pos]? = none then
      let buff ← buff.store s.loop [0]
      return .done { s with buff := buff, len := s.loop, ret := 0 }
    return .again { s with buff := buff, pos := s.pos+1, loop := s.loop+1 }
  else return .done { s with ret := -ENOMEM }

def snsdReadSection {n : ℕ} (file : Bytes) (sectionBuff : Mem n) (len pos : ℕ) :
    Except Fault (SectionRead n) :=
  loop (readSectionBody file) (file.length+1) ⟨sectionBuff, pos, 0, len, 0⟩

/-- The string in the buffer of a section name. -/
def nameText (buf : Mem SNSD_MAX_SECTION_NAME_LEN) : Bytes := buf.bytes.takeWhile (· != 0)

/-- The state of the loop in `snsd_find_section`. -/
structure FindRead (n : ℕ) where
  name : Mem SNSD_MAX_SECTION_NAME_LEN
  buff : Mem n
  pos : ℕ
  len : ℕ
  ret : ℤ

def findSectionBody {n : ℕ} (file sectionName : Bytes) (s : FindRead n) :
    Except Fault (Ctl (FindRead n)) := do
  match file[s.pos]? with
  | none => return .done { s with ret := - EIO }
  | some tmpChar =>
    if tmpChar ≠ 91 then return .again { s with pos := s.pos+1 }
    let r ← snsdReadSectionName file s.name (s.pos+1)
    if r.ret ≠ 0 then return .done { s with name := r.buf, pos := r.pos, ret := r.ret }
    -- `strncmp` of the whole array, in which the name ends
    if nameText r.buf ≠ sectionName then return .again { s with name := r.buf, pos := r.pos }
    let t ← snsdReadSection file s.buff s.len r.pos
    return .done ⟨r.buf, t.buff, t.pos, t.len, t.ret⟩

def snsdFindSection {n : ℕ} (file sectionName : Bytes) (sectionBuff : Mem n) :
    Except Fault (FindRead n) :=
  loop (findSectionBody file sectionName) (file.length+1) ⟨Mem.zero _, sectionBuff, 0, 0, 0⟩

/-- `snsd_section_load`: the buffer and the length of the section in it, or
`NULL`. -/
def snsdSectionLoad (file sectionName : Bytes) :
    Except Fault (Option (Mem (file.length+1) × ℕ)) := do
  if file.length ≥ SNSD_CFG_FILE_MAX_SIZE then return none
  let r ← snsdFindSection file sectionName (Mem.zero (file.length+1))
  if r.ret ≠ 0 then return none
  return some (r.buff, r.len)

/-- `snsd_ignore_blank_before_end` -/
def snsdIgnoreBlankBeforeEnd {n : ℕ} (buf : Mem n) : ℕ → Except Fault ℕ
  | 0 => .ok 0
  | len+1 => do
    if (← buf.get len) = 32 then snsdIgnoreBlankBeforeEnd buf len
    else return len+1

/-- The state of the loop in `snsd_del_blank`. -/
structure BlankState (n : ℕ) where
  tmpBuf : Mem n
  index : ℕ
  pos : ℕ
  flagBegin : Bool

def delBlankBody {n k : ℕ} (buf : Mem n) (bufLength : ℕ) (s : BlankState k) :
    Except Fault (Ctl (BlankState k)) := do
  if s.index < bufLength then
    let c ← buf.get s.index
    if !isSpace c && c != 61 && c != 124 then
      let tmpBuf ← s.tmpBuf.store s.pos [c]
      return .again ⟨tmpBuf, s.index+1, s.pos+1, false⟩
    else if c == 61 || c == 13 || c == 10 || c == 124 then
      -- ignore the blank before the end
      let pos ← snsdIgnoreBlankBeforeEnd s.tmpBuf s.pos
      let tmpBuf ← s.tmpBuf.store pos [c]
      return .again ⟨tmpBuf, s.index+1, pos+1, true⟩
    else if s.flagBegin = false then
      let tmpBuf ← s.tmpBuf.store s.pos [c]
      return .again ⟨tmpBuf, s.index+1, s.pos+1, s.flagBegin⟩
    else return .again { s with index := s.index+1 }
  else return .done s

/-- `snsd_del_blank`: the buffer and its new length. -/
def snsdDelBlank {n : ℕ} (buf : Mem n) (bufLength : ℕ) : Except Fault (Mem n × ℕ) := do
  let s ← loop (delBlankBody buf bufLength) (bufLength+1)
    (⟨Mem.zero (bufLength+1), 0, 0, true⟩ : BlankState (bufLength+1))
  let buf ← buf.store 0 (List.replicate bufLength 0)
  let buf ← buf.memcpy 0 ⟨s.tmpBuf.bytes, 0⟩ s.pos
  return (buf, s.pos)

end NvmeSnsd.Cfg
