import Rite.Frame.Basic

/-!
# Instructions that go on to the next

`Step.execute` says what an instruction does that neither jumps nor leaves the frame.  Arithmetic,
comparison and indexing are message sends like any other.  Instructions for blocks, closures,
exceptions, keyword arguments and wide operands are recognised and refused.
-/

namespace Rite.Step

open Rite.Action (ask demand)

variable (e : Engine)

/-! ## Loads and variables -/

/-- Load an integer. -/
def loadInteger (r : UInt16) (value : Int) : Step Unit :=
  writeResult r (Action.newInteger (Int64.ofInt value))

/-- The value of the two 16-bit halves of a 32-bit operand. -/
def wideOperand (high low : UInt16) : Int :=
  ((high.toUInt32 <<< 16) ||| low.toUInt32).toInt32.toInt

/-- Read a class variable of the target class. -/
def getClassVar (r : UInt16) (name : String) : Step Unit := do
  let target ← view (·.context.target)
  match ← act (demand (·.classVarHolder target name)) with
  | some holder => writeResult r (ask (·.ivar holder name))
  | none => fail (.uninitializedClassVariable name)

/-- Set a class variable where it is, or else on the target class. -/
def setClassVar (r : UInt16) (name : String) : Step Unit := do
  let target ← view (·.context.target)
  let holder ← act (demand (·.classVarHolder target name))
  act (Action.setIvar (holder.getD target) name (← read r))

/-! ## Calls -/

/-- Send a message to `R[a]` with the `count` registers behind it as arguments. -/
def sendRow (name : String) (a count : UInt16) : Step Handle := do
  let receiver ← read a
  let args ← view (·.span (a + 1) count)
  act (e.send receiver name args)

/-- `R[a] = R[a] <name> R[a+1]`. -/
def operator (name : String) (a : UInt16) : Step Unit := do
  write a (← sendRow e name a 1)

/-- `R[a] = R[a] <name> value`. -/
def operatorWith (name : String) (a value : UInt16) : Step Unit := do
  let operand ← act (Action.newInteger (Int64.ofInt value.toNat))
  let receiver ← read a
  writeResult a (e.send receiver name [operand])

/-- The arguments behind register `a` and how many registers they occupy.  The low four bits of
`packed` count positional arguments, the next four keyword arguments; fifteen positional ones stand
for one array that holds them. -/
def arguments (op : Opcode) (a packed : UInt16) : Step (List Handle × UInt16) := do
  let positional := packed &&& 0x0F
  if (packed >>> 4) &&& 0x0F ≠ 0 then
    fail (.notImplemented op)
  else if positional = 15 then
    let row ← read (a + 1)
    let items ← act (demand (·.array row))
    return (items.toList, 1)
  else
    return (← view (·.span (a + 1) positional), positional)

/-- Refuse a block argument: the register behind the arguments must be `nil`. -/
def refuseBlock (i : Instruction) (used : UInt16) : Step Unit := do
  if (← read (i.a + used + 1)) ≠ Handle.nil then
    fail (.notImplemented i.op)

/-- Send the message named by operand `b` to `receiver`. -/
def sendTo (i : Instruction) (receiver : Handle) (block : Bool) : Step Unit := do
  let (args, used) ← arguments i.op i.a i.c
  if block then
    refuseBlock i used
  let name ← symbol i.b
  writeResult i.a (e.send receiver name args)

/-- Call the method that comes after the one being executed. -/
def superSend (i : Instruction) : Step Unit := do
  match ← view (·.context.method) with
  | none => fail .superOutsideMethod
  | some active =>
    let (args, _) ← arguments i.op i.a i.b
    let self ← view (·.context.self)
    let found ← act (demand (·.lookupAbove self active.owner active.name))
    writeResult i.a (e.call self found active.name args)

/-! ## Arrays, strings and hashes -/

/-- Append `items` to the array `h`. -/
def appendItems (h : Handle) (items : List Handle) : Step Unit := do
  discard (act (demand fun m => (m.array h).map (·.size)))
  act (Action.changeObject h (·.mapItems (· ++ items)))

/-- Append the elements of `R[a+1]` to the array in `R[a]`; `nil` starts a new array. -/
def arrayCat (a : UInt16) : Step Unit := do
  let source ← read (a + 1)
  let items ← act (ask (·.splat source))
  let target ← read a
  if target = Handle.nil then
    writeResult a (Action.newArray items)
  else
    appendItems target items

/-- `R[a] = R[b][c]`.  A value that is no array counts as its own only item. -/
def arrayRef (i : Instruction) : Step Unit := do
  let source ← read i.b
  match ← act (ask fun m => (m.object source).array?) with
  | some items => write i.a (items.getD i.c.toNat Handle.nil)
  | none => write i.a (if i.c = 0 then source else Handle.nil)

/-- `R[b][c] = R[a]`. -/
def arraySet (i : Instruction) : Step Unit := do
  let value ← read i.a
  let target ← read i.b
  discard (act (demand fun m => (m.array target).map (·.size)))
  act (Action.changeObject target (·.mapItems (Items.put · i.c.toNat value)))

/-- What lies behind the first `pre` items, cut so that the second part has `post` items; missing
ones are `nil`. -/
def splitPost (items : List Handle) (pre post : Nat) : List Handle × List Handle :=
  let beyond := items.drop pre
  if post < beyond.length then
    (beyond.take (beyond.length - post), beyond.drop (beyond.length - post))
  else
    ([], beyond ++ List.replicate (post - beyond.length) Handle.nil)

/-- `*R[a], R[a+1], ..., R[a+c] = R[a][b..]`. -/
def arrayPost (i : Instruction) : Step Unit := do
  let source ← read i.a
  let items ← act (ask (·.splat source))
  let (rest, tail) := splitPost items i.b.toNat i.c.toNat
  writeResult i.a (Action.newArray rest)
  writeAll (i.a + 1) tail

/-- Append the text of `R[a+1]` to the string in `R[a]`. -/
def strCat (a : UInt16) : Step Unit := do
  let piece ← read (a + 1)
  let text ← match ← act (ask fun m => (m.object piece).string?) with
    | some text => pure text
    | none => act (e.toText piece)
  let target ← read a
  discard (act (demand (·.string target)))
  act (Action.changeObject target (·.mapText (· ++ text)))

/-- The symbol for the string in `R[a]`. -/
def intern (a : UInt16) : Step Unit := do
  let value ← read a
  let name ← act (demand (·.string value))
  writeResult a (Action.newSymbol name)

/-- Add pairs of registers to the hash in `R[a]`. -/
def hashAdd (a count : UInt16) : Step Unit := do
  let h ← read a
  discard (act (demand (·.hash h)))
  act (Action.hashSetAll h (← view (·.pairs (a + 1) count)))

/-- Add the pairs of the hash in `R[a+1]` to the one in `R[a]`; `nil` adds nothing. -/
def hashCat (a : UInt16) : Step Unit := do
  let h ← read a
  discard (act (demand (·.hash h)))
  let other ← read (a + 1)
  if other ≠ Handle.nil then
    let pairs ← act (demand (·.hash other))
    act (Action.hashSetAll h pairs)

/-- A range from `R[a]` to `R[a+1]`. -/
def range (a : UInt16) (exclusive : Bool) : Step Unit := do
  let first ← read a
  let last ← read (a + 1)
  writeResult a (Action.newRange first last exclusive)

/-! ## Classes and methods -/

/-- Open a class; `R[a+1]` is its superclass or `nil`. -/
def openClass (i : Instruction) : Step Unit := do
  let parent ← read (i.a + 1)
  let name ← symbol i.b
  writeResult i.a (Action.openClass name (if parent = Handle.nil then none else some parent))

/-- Evaluate a class body. -/
def execBody (i : Instruction) : Step Unit := do
  let c ← read i.a
  let body ← child i.b
  writeResult i.a (e.evaluate body (.classBody c) [])

/-- Install the method object in `R[a+1]` in the class in `R[a]`, which is replaced by the name. -/
def defMethod (i : Instruction) : Step Unit := do
  let name ← symbol i.b
  let body ← read (i.a + 1)
  let method ← act (demand (·.expect "Proc" Object.method? body))
  let c ← read i.a
  act (Action.defineMethod c name method)
  writeResult i.a (Action.newSymbol name)

/-- Remove a method from the target class. -/
def undefMethod (index : UInt16) : Step Unit := do
  let name ← symbol index
  let target ← view (·.context.target)
  act (Action.undefMethod target name)

/-! ## All of them -/

/-- What an instruction does that neither jumps nor leaves the frame. -/
def execute (i : Instruction) : Step Unit := do
  match i.op with
  | .nop | .enter | .debug => return ()
  | .move => write i.a (← read i.b)
  | .loadLit | .string => writeResult i.a (Action.newString (← literal i.b))
  | .loadInt => loadInteger i.a i.b.toNat
  | .loadNeg => loadInteger i.a (-i.b.toNat)
  | .loadMinusOne => loadInteger i.a (-1)
  | .load0 => loadInteger i.a 0
  | .load1 => loadInteger i.a 1
  | .load2 => loadInteger i.a 2
  | .load3 => loadInteger i.a 3
  | .load4 => loadInteger i.a 4
  | .load5 => loadInteger i.a 5
  | .load6 => loadInteger i.a 6
  | .load7 => loadInteger i.a 7
  | .loadInt16 => loadInteger i.a i.b.toInt16.toInt
  | .loadInt32 => loadInteger i.a (wideOperand i.b i.c)
  | .loadSym => writeResult i.a (Action.newSymbol (← symbol i.b))
  | .loadNil => write i.a Handle.nil
  | .loadSelf => write i.a (← view (·.context.self))
  | .loadTrue => write i.a Handle.yes
  | .loadFalse => write i.a Handle.no
  | .getGlobal =>
    let name ← symbol i.b
    writeResult i.a (ask (·.global name))
  | .setGlobal =>
    let name ← symbol i.b
    act (Action.setGlobal name (← read i.a))
  | .getIvar =>
    let name ← symbol i.b
    let self ← view (·.context.self)
    writeResult i.a (ask (·.ivar self name))
  | .setIvar =>
    let name ← symbol i.b
    let self ← view (·.context.self)
    act (Action.setIvar self name (← read i.a))
  | .getClassVar => getClassVar i.a (← symbol i.b)
  | .setClassVar => setClassVar i.a (← symbol i.b)
  | .getConst => writeResult i.a (Action.constant (← symbol i.b))
  | .setConst =>
    let name ← symbol i.b
    act (Action.setConstant name (← read i.a))
  | .getIndex => operator e "[]" i.a
  | .setIndex => discard (sendRow e "[]=" i.a 2)
  | .selfSend => sendTo e i (← view (·.context.self)) false
  | .selfSendBlk => sendTo e i (← view (·.context.self)) true
  | .send => sendTo e i (← read i.a) false
  | .sendBlk => sendTo e i (← read i.a) true
  | .superSend => superSend e i
  | .add => operator e "+" i.a
  | .sub => operator e "-" i.a
  | .mul => operator e "*" i.a
  | .div => operator e "/" i.a
  | .eq => operator e "==" i.a
  | .lt => operator e "<" i.a
  | .le => operator e "<=" i.a
  | .gt => operator e ">" i.a
  | .ge => operator e ">=" i.a
  | .addInt => operatorWith e "+" i.a i.b
  | .subInt => operatorWith e "-" i.a i.b
  | .array => writeResult i.a (Action.newArray (← view (·.span i.a i.b)))
  | .arrayFrom => writeResult i.a (Action.newArray (← view (·.span i.b i.c)))
  | .arrayCat => arrayCat i.a
  | .arrayPush => appendItems (← read i.a) (← view (·.span (i.a + 1) i.b))
  | .arrayDup =>
    let source ← read i.a
    let items ← act (ask (·.splat source))
    writeResult i.a (Action.newArray items)
  | .arrayRef => arrayRef i
  | .arraySet => arraySet i
  | .arrayPost => arrayPost i
  | .intern => intern i.a
  | .symbol => writeResult i.a (Action.newSymbol (← literal i.b))
  | .strCat => strCat e i.a
  | .hash => writeResult i.a (Action.newHash (← view (·.pairs i.a i.b)))
  | .hashAdd => hashAdd i.a i.b
  | .hashCat => hashCat i.a
  | .rangeInc => range i.a false
  | .rangeExc => range i.a true
  | .objectClass => write i.a Handle.objectClass
  | .openClass => openClass i
  | .openModule => writeResult i.a (Action.openModule (← symbol i.b))
  | .execBody => execBody e i
  | .method => writeResult i.a (Action.newMethod (.bytecode (← child i.b)))
  | .defMethod => defMethod i
  | .undefMethod => undefMethod i.a
  | .singletonClass => writeResult i.a (Action.singletonClassOf (← read i.a))
  | .targetClass => write i.a (← view (·.context.target))
  | .raiseLiteral => fail (.localJump (← literal i.a))
  | op => fail (.notImplemented op)

end Rite.Step
