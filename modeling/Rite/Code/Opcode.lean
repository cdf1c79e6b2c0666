/-!
# Opcodes of the RITE instruction set

Every instruction starts with one opcode byte.  The 106 opcodes are numbered without gaps from
`0x00` to `0x69`, and an opcode alone fixes how many operands follow it and how wide they are: its
`Shape`.  The byte of an opcode is its place in the declaration below, so `Opcode.ofByte?` is a
look-up in `Opcode.all` and cannot drift from `Opcode.toByte`.
-/

namespace Rite

/-- Operand layout of an opcode.  `b` stands for an 8-bit operand and `s` for a 16-bit one; the
register operand always comes first. -/
inductive Shape where
  | z | b | bb | bbb | bs | bss | s
  deriving DecidableEq, Inhabited

namespace Shape

/-- How many operand bytes follow the opcode byte. -/
def width : Shape → Nat
  | .z => 0
  | .b => 1
  | .bb | .s => 2
  | .bbb | .bs => 3
  | .bss => 5

/-- How many operands an instruction of this shape carries. -/
def arity : Shape → Nat
  | .z => 0
  | .b | .s => 1
  | .bb | .bs => 2
  | .bbb | .bss => 3

/-- The letters by which a shape is written down. -/
def letters : Shape → String
  | .z => "Z"
  | .b => "B"
  | .bb => "BB"
  | .bbb => "BBB"
  | .bs => "BS"
  | .bss => "BSS"
  | .s => "S"

end Shape

/-- The instruction set, in encoding order. -/
inductive Opcode where
  | nop | move | loadLit | loadInt | loadNeg | loadMinusOne | load0 | load1 | load2 | load3
  | load4 | load5 | load6 | load7 | loadInt16 | loadInt32 | loadSym | loadNil | loadSelf
  | loadTrue | loadFalse | getGlobal | setGlobal | getSpecial | setSpecial | getIvar | setIvar
  | getClassVar | setClassVar | getConst | setConst | getScoped | setScoped | getUpvar
  | setUpvar | getIndex | setIndex | jump | jumpIf | jumpUnless | jumpNil | jumpUnwind | except
  | rescue | raiseIf | selfSend | selfSendBlk | send | sendBlk | call | superSend | argArray
  | enter | keyPresent | keyEnd | keyArg | ret | retBlk | brk | blockPush | add | addInt | sub
  | subInt | mul | div | eq | lt | le | gt | ge | array | arrayFrom | arrayCat | arrayPush
  | arrayDup | arrayRef | arraySet | arrayPost | intern | symbol | string | strCat | hash
  | hashAdd | hashCat | lambda | block | method | rangeInc | rangeExc | objectClass | openClass
  | openModule | execBody | defMethod | aliasMethod | undefMethod | singletonClass
  | targetClass | debug | raiseLiteral | ext1 | ext2 | ext3 | stop
  deriving DecidableEq, Inhabited

namespace Opcode

/-- Every opcode, in encoding order. -/
def all : List Opcode :=
  [.nop, .move, .loadLit, .loadInt, .loadNeg, .loadMinusOne, .load0, .load1, .load2, .load3,
   .load4, .load5, .load6, .load7, .loadInt16, .loadInt32, .loadSym, .loadNil, .loadSelf,
   .loadTrue, .loadFalse, .getGlobal, .setGlobal, .getSpecial, .setSpecial, .getIvar, .setIvar,
   .getClassVar, .setClassVar, .getConst, .setConst, .getScoped, .setScoped, .getUpvar,
   .setUpvar, .getIndex, .setIndex, .jump, .jumpIf, .jumpUnless, .jumpNil, .jumpUnwind,
   .except, .rescue, .raiseIf, .selfSend, .selfSendBlk, .send, .sendBlk, .call, .superSend,
   .argArray, .enter, .keyPresent, .keyEnd, .keyArg, .ret, .retBlk, .brk, .blockPush, .add,
   .addInt, .sub, .subInt, .mul, .div, .eq, .lt, .le, .gt, .ge, .array, .arrayFrom, .arrayCat,
   .arrayPush, .arrayDup, .arrayRef, .arraySet, .arrayPost, .intern, .symbol, .string, .strCat,
   .hash, .hashAdd, .hashCat, .lambda, .block, .method, .rangeInc, .rangeExc, .objectClass,
   .openClass, .openModule, .execBody, .defMethod, .aliasMethod, .undefMethod, .singletonClass,
   .targetClass, .debug, .raiseLiteral, .ext1, .ext2, .ext3, .stop]

/-- Mnemonic and operand layout of each opcode. -/
def row : Opcode → String × Shape
  | .nop => ("NOP", .z)
  | .move => ("MOVE", .bb)
  | .loadLit => ("LOADL", .bb)
  | .loadInt => ("LOADI", .bb)
  | .loadNeg => ("LOADINEG", .bb)
  | .loadMinusOne => ("LOADI__1", .b)
  | .load0 => ("LOADI_0", .b)
  | .load1 => ("LOADI_1", .b)
  | .load2 => ("LOADI_2", .b)
  | .load3 => ("LOADI_3", .b)
  | .load4 => ("LOADI_4", .b)
  | .load5 => ("LOADI_5", .b)
  | .load6 => ("LOADI_6", .b)
  | .load7 => ("LOADI_7", .b)
  | .loadInt16 => ("LOADI16", .bs)
  | .loadInt32 => ("LOADI32", .bss)
  | .loadSym => ("LOADSYM", .bb)
  | .loadNil => ("LOADNIL", .b)
  | .loadSelf => ("LOADSELF", .b)
  | .loadTrue => ("LOADT", .b)
  | .loadFalse => ("LOADF", .b)
  | .getGlobal => ("GETGV", .bb)
  | .setGlobal => ("SETGV", .bb)
  | .getSpecial => ("GETSV", .bb)
  | .setSpecial => ("SETSV", .bb)
  | .getIvar => ("GETIV", .bb)
  | .setIvar => ("SETIV", .bb)
  | .getClassVar => ("GETCV", .bb)
  | .setClassVar => ("SETCV", .bb)
  | .getConst => ("GETCONST", .bb)
  | .setConst => ("SETCONST", .bb)
  | .getScoped => ("GETMCNST", .bb)
  | .setScoped => ("SETMCNST", .bb)
  | .getUpvar => ("GETUPVAR", .bbb)
  | .setUpvar => ("SETUPVAR", .bbb)
  | .getIndex => ("GETIDX", .b)
  | .setIndex => ("SETIDX", .b)
  | .jump => ("JMP", .s)
  | .jumpIf => ("JMPIF", .bs)
  | .jumpUnless => ("JMPNOT", .bs)
  | .jumpNil => ("JMPNIL", .bs)
  | .jumpUnwind => ("JMPUW", .s)
  | .except => ("EXCEPT", .b)
  | .rescue => ("RESCUE", .bb)
  | .raiseIf => ("RAISEIF", .b)
  | .selfSend => ("SSEND", .bbb)
  | .selfSendBlk => ("SSENDB", .bbb)
  | .send => ("SEND", .bbb)
  | .sendBlk => ("SENDB", .bbb)
  | .call => ("CALL", .z)
  | .superSend => ("SUPER", .bb)
  | .argArray => ("ARGARY", .bs)
  | .enter => ("ENTER", .s)
  | .keyPresent => ("KEY_P", .bb)
  | .keyEnd => ("KEYEND", .z)
  | .keyArg => ("KARG", .bb)
  | .ret => ("RETURN", .b)
  | .retBlk => ("RETURN_BLK", .b)
  | .brk => ("BREAK", .b)
  | .blockPush => ("BLKPUSH", .bs)
  | .add => ("ADD", .b)
  | .addInt => ("ADDI", .bb)
  | .sub => ("SUB", .b)
  | .subInt => ("SUBI", .bb)
  | .mul => ("MUL", .b)
  | .div => ("DIV", .b)
  | .eq => ("EQ", .b)
  | .lt => ("LT", .b)
  | .le => ("LE", .b)
  | .gt => ("GT", .b)
  | .ge => ("GE", .b)
  | .array => ("ARRAY", .bb)
  | .arrayFrom => ("ARRAY2", .bbb)
  | .arrayCat => ("ARYCAT", .b)
  | .arrayPush => ("ARYPUSH", .bb)
  | .arrayDup => ("ARYDUP", .b)
  | .arrayRef => ("AREF", .bbb)
  | .arraySet => ("ASET", .bbb)
  | .arrayPost => ("APOST", .bbb)
  | .intern => ("INTERN", .b)
  | .symbol => ("SYMBOL", .bb)
  | .string => ("STRING", .bb)
  | .strCat => ("STRCAT", .b)
  | .hash => ("HASH", .bb)
  | .hashAdd => ("HASHADD", .bb)
  | .hashCat => ("HASHCAT", .b)
  | .lambda => ("LAMBDA", .bb)
  | .block => ("BLOCK", .bb)
  | .method => ("METHOD", .bb)
  | .rangeInc => ("RANGE_INC", .b)
  | .rangeExc => ("RANGE_EXC", .b)
  | .objectClass => ("OCLASS", .b)
  | .openClass => ("CLASS", .bb)
  | .openModule => ("MODULE", .bb)
  | .execBody => ("EXEC", .bb)
  | .defMethod => ("DEF", .bb)
  | .aliasMethod => ("ALIAS", .bb)
  | .undefMethod => ("UNDEF", .b)
  | .singletonClass => ("SCLASS", .b)
  | .targetClass => ("TCLASS", .b)
  | .debug => ("DEBUG", .bbb)
  | .raiseLiteral => ("ERR", .b)
  | .ext1 => ("EXT1", .z)
  | .ext2 => ("EXT2", .z)
  | .ext3 => ("EXT3", .z)
  | .stop => ("STOP", .z)

/-- The name an opcode has in listings and messages. -/
def mnemonic (op : Opcode) : String := op.row.1

/-- The operand layout of an opcode. -/
def shape (op : Opcode) : Shape := op.row.2

/-- The byte that encodes an opcode. -/
def toByte (op : Opcode) : UInt8 := UInt8.ofNat op.ctorIdx

/-- The opcode a byte encodes, if any. -/
def ofByte? (byte : UInt8) : Option Opcode := all[byte.toNat]?

/-- The opcode with the given mnemonic, if any. -/
def ofMnemonic? (name : String) : Option Opcode := all.find? (·.mnemonic == name)

/-- Size of an encoded instruction with this opcode, the opcode byte included. -/
def encodedSize (op : Opcode) : Nat := 1 + op.shape.width

/-- Jumps carry a signed 16-bit distance, counted from the end of the instruction. -/
def isJump : Opcode → Bool
  | .jump | .jumpIf | .jumpUnless | .jumpNil | .jumpUnwind => true
  | _ => false

end Opcode

end Rite
