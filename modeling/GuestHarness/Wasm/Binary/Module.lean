import GuestHarness.Wasm.Binary.Instruction

/-! Modules in the binary format: a preamble, then sections in a fixed order, each at most once, with
custom sections anywhere between them. -/
namespace GuestHarness.Wasm.Binary

def preamble : List UInt8 := [0x00, 0x61, 0x73, 0x6D, 0x01, 0x00, 0x00, 0x00]

def funcType : Reader FuncType := do
  expect 0x60
  let params ← listOf valType
  return ⟨params, ← listOf valType⟩

def limits (bounded : Bool) : Reader Limits := do
  let minimum ← u32
  return ⟨minimum, ← if bounded then some <$> u32 else pure none⟩

/-- A shared memory has a maximum. -/
def memoryType : Reader MemoryType := do
  match ← byte with
  | 0x00 => return ⟨← limits false, false⟩
  | 0x01 => return ⟨← limits true, false⟩
  | 0x03 => return ⟨← limits true, true⟩
  | _ => failure

def tableType : Reader TableType := do
  let element ← refType
  match ← byte with
  | 0x00 => return ⟨element, ← limits false⟩
  | 0x01 => return ⟨element, ← limits true⟩
  | _ => failure

def globalType : Reader GlobalType := do
  let type ← valType
  match ← byte with
  | 0x00 => return ⟨type, false⟩
  | 0x01 => return ⟨type, true⟩
  | _ => failure

def importEntry : Reader Import := do
  let module ← name
  let field ← name
  let type ← match ← byte with
    | 0x00 => ImportType.func <$> u32
    | 0x01 => ImportType.table <$> tableType
    | 0x02 => ImportType.memory <$> memoryType
    | 0x03 => ImportType.global <$> globalType
    | _ => failure
  return ⟨module, field, type⟩

def exportEntry : Reader Export := do
  let field ← name
  let kind ← match ← byte with
    | 0x00 => pure ExportKind.func
    | 0x01 => pure ExportKind.table
    | 0x02 => pure ExportKind.memory
    | 0x03 => pure ExportKind.global
    | _ => failure
  return ⟨field, kind, ← u32⟩

def globalEntry (types : Array FuncType) : Reader Global := do
  let type ← globalType
  return ⟨type, ← expression types⟩

/-- Bit 0 says passive or declared, bit 1 an explicit table or declared, bit 2 expressions. -/
def elementEntry (types : Array FuncType) : Reader ElementSegment := do
  let flags ← u32
  if 8 ≤ flags then failure
  let aside := flags % 2 = 1
  let explicit := flags / 2 % 2 = 1
  let expressions := flags / 4 = 1
  let mode ←
    if aside then pure (if explicit then SegmentMode.declared else .passive)
    else do
      let table ← if explicit then u32 else pure 0
      pure (.active table (← expression types))
  let type ←
    if !aside && !explicit then pure RefType.func
    else if expressions then refType
    else do
      expect 0x00
      pure .func
  let items ←
    if expressions then listOf (expression types)
    else listOf (do return [Instr.refFunc (← u32)])
  return ⟨mode, type, items⟩

def dataEntry (types : Array FuncType) : Reader DataSegment := do
  let mode ← match ← u32 with
    | 0 => SegmentMode.active 0 <$> expression types
    | 1 => pure .passive
    | 2 => do
      let memory ← u32
      SegmentMode.active memory <$> expression types
    | _ => failure
  return ⟨mode, ← bytes (← u32)⟩

/-- A function has at most this many local variables, its parameters included. -/
def maxLocals : Nat := 50000

/-- The number of local variables in runs of one type each. -/
def localCount (runs : List (Nat × ValType)) : Nat := runs.foldl (fun n run => n + run.1) 0

def codeEntry (types : Array FuncType) : Reader Code := do
  within (← u32) do
    let locals ← listOf do
      let n ← u32
      return (n, ← valType)
    if maxLocals < localCount locals then failure
    return ⟨locals, ← expression types⟩

/-- Where a section stands among the others; custom sections stand anywhere. -/
def sectionRank? : UInt8 → Option Nat
  | 1 => some 1
  | 2 => some 2
  | 3 => some 3
  | 4 => some 4
  | 5 => some 5
  | 6 => some 6
  | 7 => some 7
  | 8 => some 8
  | 9 => some 9
  | 12 => some 10
  | 10 => some 11
  | 11 => some 12
  | _ => none

def sectionBody (m : Module) (id : UInt8) : Reader Module := do
  match id with
  | 1 => return { m with types := (← listOf funcType).toArray }
  | 2 => return { m with imports := ← listOf importEntry }
  | 3 => return { m with functions := ← listOf u32 }
  | 4 => return { m with tables := ← listOf tableType }
  | 5 => return { m with memories := ← listOf memoryType }
  | 6 => return { m with globals := ← listOf (globalEntry m.types) }
  | 7 => return { m with exports := ← listOf exportEntry }
  | 8 => return { m with start := some (← u32) }
  | 9 => return { m with elements := ← listOf (elementEntry m.types) }
  | 12 => return { m with dataCount := some (← u32) }
  | 10 => return { m with codes := ← listOf (codeEntry m.types) }
  | 11 => return { m with datas := ← listOf (dataEntry m.types) }
  | _ => failure

/-- A custom section needs a name; the rest of it is skipped. -/
def customBody : Reader Unit := do
  let _ ← name
  set ([] : List UInt8)

/-- The sections after one of rank `rank`. Each takes two bytes at least, which bounds the first
argument. -/
def sections : Nat → Nat → Module → Reader Module
  | 0, _, _ => failure
  | rounds + 1, rank, m => do
    if ← atEnd then return m
    let id ← byte
    let size ← u32
    if id = 0 then
      within size customBody
      sections rounds rank m
    else match sectionRank? id with
      | none => failure
      | some r =>
        if r ≤ rank then failure
        sections rounds r (← within size (sectionBody m id))

/-- The module that the bytes are the binary form of. -/
def decode? (bs : List UInt8) : Option Module :=
  if bs.take 8 = preamble then
    ((sections (bs.length + 1) 0 {}).run (bs.drop 8)).map Prod.fst
  else none

end GuestHarness.Wasm.Binary
