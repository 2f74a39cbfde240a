import GuestHarness.Wasm.Binary.Reader
import GuestHarness.Wasm.Module

/-! Types and instructions in the binary format. Operators on numbers form runs of operation codes,
so each run is a list. -/
namespace GuestHarness.Wasm.Binary

def refType : Reader RefType := do
  match ← byte with
  | 0x70 => return .func
  | 0x6F => return .external
  | _ => failure

def valType? : UInt8 → Option ValType
  | 0x7F => some .i32
  | 0x7E => some .i64
  | 0x7D => some .f32
  | 0x7C => some .f64
  | 0x7B => some .vector
  | 0x70 => some .funcref
  | 0x6F => some .externref
  | _ => none

def valType : Reader ValType := do
  match valType? (← byte) with
  | some t => return t
  | none => failure

/-- The type of a block: empty, one result, or a function type by its index. -/
def blockType (types : Array FuncType) : Reader FuncType := do
  let b ← peek
  if b = 0x40 then
    let _ ← byte
    return ⟨[], []⟩
  else match valType? b with
    | some t =>
      let _ ← byte
      return ⟨[], [t]⟩
    | none =>
      let n ← s33
      if n < 0 then failure
      match types[n.toNat]? with
      | some t => return t
      | none => failure

/-- Bit 6 of the alignment announces the index of a memory. -/
def memArg : Reader MemArg := do
  let flags ← u32
  let named := flags / 64 % 2 = 1
  let memory ← if named then u32 else pure 0
  let align := if named then flags - 64 else flags
  if 64 ≤ align then failure
  return ⟨memory, align, ← u32⟩

def intCompares : List IntCompare := [.eq, .ne, .ltS, .ltU, .gtS, .gtU, .leS, .leU, .geS, .geU]
def floatCompares : List FloatCompare := [.eq, .ne, .lt, .gt, .le, .ge]
def intBinaries : List IntBinary :=
  [.add, .sub, .mul, .divS, .divU, .remS, .remU, .and, .or, .xor, .shl, .shrS, .shrU, .rotl, .rotr]
def floatUnaries : List FloatUnary := [.abs, .neg, .ceil, .floor, .trunc, .nearest, .sqrt]
def floatBinaries : List FloatBinary := [.add, .sub, .mul, .div, .min, .max, .copysign]

def bitCounts : List IntUnary := [.clz, .ctz, .popcnt]

/-- The operators from code 0x45 on, in runs. -/
def numericRuns : List (List NumericOp) :=
  [[.eqz .w32], intCompares.map (.intCompare .w32),
    [.eqz .w64], intCompares.map (.intCompare .w64),
    floatCompares.map (.floatCompare .w32), floatCompares.map (.floatCompare .w64),
    bitCounts.map (.intUnary .w32), intBinaries.map (.intBinary .w32),
    bitCounts.map (.intUnary .w64), intBinaries.map (.intBinary .w64),
    floatUnaries.map (.floatUnary .w32), floatBinaries.map (.floatBinary .w32),
    floatUnaries.map (.floatUnary .w64), floatBinaries.map (.floatBinary .w64),
    [.wrap],
    [.truncate .w32 .w32 true false, .truncate .w32 .w32 false false],
    [.truncate .w32 .w64 true false, .truncate .w32 .w64 false false],
    [.extend true, .extend false],
    [.truncate .w64 .w32 true false, .truncate .w64 .w32 false false],
    [.truncate .w64 .w64 true false, .truncate .w64 .w64 false false],
    [.convert .w32 .w32 true, .convert .w32 .w32 false],
    [.convert .w32 .w64 true, .convert .w32 .w64 false],
    [.demote],
    [.convert .w64 .w32 true, .convert .w64 .w32 false],
    [.convert .w64 .w64 true, .convert .w64 .w64 false],
    [.promote],
    [.bitsOfFloat .w32, .bitsOfFloat .w64, .floatOfBits .w32, .floatOfBits .w64],
    [.intUnary .w32 .extend8, .intUnary .w32 .extend16],
    [.intUnary .w64 .extend8, .intUnary .w64 .extend16, .intUnary .w64 .extend32]]

def numericOps : Array NumericOp := numericRuns.flatten.toArray

example : numericOps.size = 0xC4 - 0x45 + 1 := by decide +kernel

/-- The conversions that saturate, in the order of their codes. -/
def saturatingOps : Array NumericOp :=
  #[.truncate .w32 .w32 true true, .truncate .w32 .w32 false true,
    .truncate .w32 .w64 true true, .truncate .w32 .w64 false true,
    .truncate .w64 .w32 true true, .truncate .w64 .w32 false true,
    .truncate .w64 .w64 true true, .truncate .w64 .w64 false true]

/-- The loads from code 0x28 on. -/
def loadOps : Array LoadOp :=
  #[⟨.i32, 4, false⟩, ⟨.i64, 8, false⟩, ⟨.f32, 4, false⟩, ⟨.f64, 8, false⟩,
    ⟨.i32, 1, true⟩, ⟨.i32, 1, false⟩, ⟨.i32, 2, true⟩, ⟨.i32, 2, false⟩,
    ⟨.i64, 1, true⟩, ⟨.i64, 1, false⟩, ⟨.i64, 2, true⟩, ⟨.i64, 2, false⟩,
    ⟨.i64, 4, true⟩, ⟨.i64, 4, false⟩]

/-- The stores from code 0x36 on. -/
def storeOps : Array StoreOp :=
  #[⟨.i32, 4⟩, ⟨.i64, 8⟩, ⟨.f32, 4⟩, ⟨.f64, 8⟩, ⟨.i32, 1⟩, ⟨.i32, 2⟩, ⟨.i64, 1⟩, ⟨.i64, 2⟩,
    ⟨.i64, 4⟩]

/-- Widths of atomic accesses, in the order in which every group of codes has them. -/
def atomicShapes : Array (Width × Nat) :=
  #[(.w32, 4), (.w64, 8), (.w32, 1), (.w32, 2), (.w64, 1), (.w64, 2), (.w64, 4)]

/-- The atomic accesses from code 0x10 on, in groups of seven. -/
def atomicOp? (n : Nat) : Option AtomicOp := do
  let (w, bytes) ← atomicShapes[n % 7]?
  match n / 7 with
  | 0 => some (.load w bytes)
  | 1 => some (.store w bytes)
  | 2 => some (.rmw .add w bytes)
  | 3 => some (.rmw .sub w bytes)
  | 4 => some (.rmw .and w bytes)
  | 5 => some (.rmw .or w bytes)
  | 6 => some (.rmw .xor w bytes)
  | 7 => some (.rmw .xchg w bytes)
  | 8 => some (.cmpxchg w bytes)
  | _ => none

def atomicInstr : Reader Instr := do
  match ← u32 with
  | 0x00 => return .atomic .notify (← memArg)
  | 0x01 => return .atomic (.wait .w32) (← memArg)
  | 0x02 => return .atomic (.wait .w64) (← memArg)
  | 0x03 => expect 0; return .fence
  | n =>
    if n < 0x10 then failure
    match atomicOp? (n - 0x10) with
    | some op => return .atomic op (← memArg)
    | none => failure

/-- Bulk operations on memories and tables, and the conversions that saturate. -/
def bulkInstr : Reader Instr := do
  match ← u32 with
  | 8 =>
    let segment ← u32
    return .memoryInit (← u32) segment
  | 9 => return .dataDrop (← u32)
  | 10 =>
    let target ← u32
    return .memoryCopy target (← u32)
  | 11 => return .memoryFill (← u32)
  | 12 =>
    let segment ← u32
    return .tableInit (← u32) segment
  | 13 => return .elemDrop (← u32)
  | 14 =>
    let target ← u32
    return .tableCopy target (← u32)
  | 15 => return .tableGrow (← u32)
  | 16 => return .tableSize (← u32)
  | 17 => return .tableFill (← u32)
  | n =>
    match saturatingOps[n]? with
    | some op => return .numeric op
    | none => failure

/-- What follows the code of a vector operator. -/
inductive VectorShape where
  | plain (operands : List ValType) (result : ValType)
  /-- An access of `2 ^ align` bytes, and the number of lanes if one is named. -/
  | access (operands results : List ValType) (align : Nat) (lanes : Option Nat)
  /-- A lane of so many. -/
  | lane (operands : List ValType) (result : ValType) (lanes : Nat)
  | const
  | shuffle

open ValType in
/-- The shapes of vector operators by their codes. -/
def vectorShape? (n : Nat) : Option VectorShape :=
  let unary : Option VectorShape := some (.plain [vector] vector)
  let binary : Option VectorShape := some (.plain [vector, vector] vector)
  let ternary : Option VectorShape := some (.plain [vector, vector, vector] vector)
  let test : Option VectorShape := some (.plain [vector] i32)
  let shift : Option VectorShape := some (.plain [vector, i32] vector)
  let load (align : Nat) : Option VectorShape := some (.access [i32] [vector] align none)
  let splat (t : ValType) : Option VectorShape := some (.plain [t] vector)
  let extract (t : ValType) (lanes : Nat) : Option VectorShape := some (.lane [vector] t lanes)
  let replace (t : ValType) (lanes : Nat) : Option VectorShape :=
    some (.lane [vector, t] vector lanes)
  if n = 0 then load 4
  else if n ≤ 6 then load 3
  else if n ≤ 10 then load (n - 7)
  else if n = 11 then some (.access [i32, vector] [] 4 none)
  else if n = 12 then some .const
  else if n = 13 then some .shuffle
  else if n = 14 then binary
  else if n ≤ 17 then splat i32
  else if n = 18 then splat i64
  else if n = 19 then splat f32
  else if n = 20 then splat f64
  else if n ≤ 22 then extract i32 16
  else if n = 23 then replace i32 16
  else if n ≤ 25 then extract i32 8
  else if n = 26 then replace i32 8
  else if n = 27 then extract i32 4
  else if n = 28 then replace i32 4
  else if n = 29 then extract i64 2
  else if n = 30 then replace i64 2
  else if n = 31 then extract f32 4
  else if n = 32 then replace f32 4
  else if n = 33 then extract f64 2
  else if n = 34 then replace f64 2
  else if n ≤ 76 then binary
  else if n = 77 then unary
  else if n ≤ 81 then binary
  else if n = 82 then ternary
  else if n = 83 then test
  else if n ≤ 87 then some (.access [i32, vector] [vector] (n - 84) (some (1 <<< (87 - n + 1))))
  else if n ≤ 91 then some (.access [i32, vector] [] (n - 88) (some (1 <<< (91 - n + 1))))
  else if n ≤ 93 then load (n - 90)
  else if [94, 95, 96, 97, 98, 103, 104, 105, 106, 116, 117, 122, 124, 125, 126, 127, 128, 129, 135,
      136, 137, 138, 148, 160, 161, 167, 168, 169, 170, 192, 193, 199, 200, 201, 202, 224, 225, 227,
      236, 237, 239, 248, 249, 250, 251, 252, 253, 254, 255, 257, 258, 259, 260].contains n then unary
  else if [99, 100, 131, 132, 163, 164, 195, 196].contains n then test
  else if [107, 108, 109, 139, 140, 141, 171, 172, 173, 203, 204, 205].contains n then shift
  else if [154, 162, 165, 166, 175, 176, 178, 179, 180, 187, 194, 197, 198, 207, 208, 210, 211, 212,
      226, 238].contains n then none
  else if n ≤ 256 then binary
  else if n ≤ 268 then ternary
  else if n ≤ 274 then binary
  else if n = 275 then ternary
  else none

def laneOf (lanes : Nat) : Reader Unit := do
  if lanes ≤ (← byte).toNat then failure

def vectorInstr : Reader Instr := do
  match vectorShape? (← u32) with
  | none => failure
  | some (.plain operands result) => return .vector ⟨operands, [result], none⟩
  | some (.lane operands result lanes) =>
    laneOf lanes
    return .vector ⟨operands, [result], none⟩
  | some (.access operands results align lanes) =>
    let arg ← memArg
    match lanes with
    | some n => laneOf n
    | none => pure ()
    return .vector ⟨operands, results, some (arg, align)⟩
  | some .const =>
    let low ← fixed 8
    return .literal (.vector (.ofNat low) (.ofNat (← fixed 8)))
  | some .shuffle =>
    for _ in [0:16] do laneOf 32
    return .vector ⟨[.vector, .vector], [.vector], none⟩

/-- An instruction that is no block, after its code. -/
def plainInstr (code : UInt8) : Reader Instr := do
  match code with
  | 0x00 => return .unreachable
  | 0x01 => return .nop
  | 0x0C => return .br (← u32)
  | 0x0D => return .brIf (← u32)
  | 0x0E =>
    let labels ← listOf u32
    return .brTable labels (← u32)
  | 0x0F => return .ret
  | 0x10 => return .call (← u32)
  | 0x11 =>
    let type ← u32
    return .callIndirect (← u32) type
  | 0x12 => return .returnCall (← u32)
  | 0x13 =>
    let type ← u32
    return .returnCallIndirect (← u32) type
  | 0x1A => return .drop
  | 0x1B => return .select none
  | 0x1C =>
    if (← u32) ≠ 1 then failure
    return .select (some (← valType))
  | 0x20 => return .localGet (← u32)
  | 0x21 => return .localSet (← u32)
  | 0x22 => return .localTee (← u32)
  | 0x23 => return .globalGet (← u32)
  | 0x24 => return .globalSet (← u32)
  | 0x25 => return .tableGet (← u32)
  | 0x26 => return .tableSet (← u32)
  | 0x3F => return .memorySize (← u32)
  | 0x40 => return .memoryGrow (← u32)
  | 0x41 => return .literal (.i32 (Int32.ofInt (← s32)).toUInt32)
  | 0x42 => return .literal (.i64 (Int64.ofInt (← s64)).toUInt64)
  | 0x43 => return .literal (.f32 (.ofNat (← fixed 4)))
  | 0x44 => return .literal (.f64 (.ofNat (← fixed 8)))
  | 0xD0 => return .refNull (← refType)
  | 0xD1 => return .refIsNull
  | 0xD2 => return .refFunc (← u32)
  | 0xFC => bulkInstr
  | 0xFD => vectorInstr
  | 0xFE => atomicInstr
  | code =>
    let n := code.toNat
    if let some op := if 0x28 ≤ n then loadOps[n - 0x28]? else none then
      return .load op (← memArg)
    if let some op := if 0x36 ≤ n then storeOps[n - 0x36]? else none then
      return .store op (← memArg)
    if let some op := if 0x45 ≤ n then numericOps[n - 0x45]? else none then
      return .numeric op
    failure

/-- A block whose end has not been read, with what came before it, reversed. -/
inductive Opened where
  | block (type : FuncType) (before : List Instr)
  | loop (type : FuncType) (before : List Instr)
  | cond (type : FuncType) (before : List Instr)
  | otherwise (type : FuncType) (yes before : List Instr)

/-- Closes a block whose body is `body`. -/
def Opened.close (body : List Instr) : Opened → List Instr
  | block t before => .block t body :: before
  | loop t before => .loop t body :: before
  | cond t before => .cond t body [] :: before
  | otherwise t yes before => .cond t yes body :: before

/-- Instructions up to the end that closes them all. Every round reads a byte, which bounds the
first argument. -/
def instrs (types : Array FuncType) : Nat → List Opened → List Instr → Reader (List Instr)
  | 0, _, _ => failure
  | rounds + 1, opened, read => do
    match ← byte with
    | 0x02 =>
      let t ← blockType types
      instrs types rounds (.block t read :: opened) []
    | 0x03 =>
      let t ← blockType types
      instrs types rounds (.loop t read :: opened) []
    | 0x04 =>
      let t ← blockType types
      instrs types rounds (.cond t read :: opened) []
    | 0x05 =>
      match opened with
      | .cond t before :: opened =>
        instrs types rounds (.otherwise t read.reverse before :: opened) []
      | _ => failure
    | 0x0B =>
      match opened with
      | [] => return read.reverse
      | o :: opened => instrs types rounds opened (o.close read.reverse)
    | code =>
      let i ← plainInstr code
      instrs types rounds opened (i :: read)

def expression (types : Array FuncType) : Reader (List Instr) := do
  instrs types ((← get).length + 1) [] []

end GuestHarness.Wasm.Binary
