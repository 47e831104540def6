import Postmortem.Report.Architecture

/-!
# Registers

The registers of a thread come in groups, of which some may be missing. They are written in lines
of a fixed layout for each kind of processor.
-/
namespace Postmortem

open Text

/-- Which groups of registers are known. -/
structure RegisterGroups where
  integer : Bool := true
  control : Bool := true
  segments : Bool := true
  deriving DecidableEq, Repr, Inhabited

/-- The segment registers. -/
structure SegmentRegisters where
  cs : UInt16
  ss : UInt16
  ds : UInt16
  es : UInt16
  fs : UInt16
  gs : UInt16
  deriving DecidableEq, Repr, Inhabited

structure X86Registers where
  eax : UInt32
  ebx : UInt32
  ecx : UInt32
  edx : UInt32
  esi : UInt32
  edi : UInt32
  eip : UInt32
  esp : UInt32
  ebp : UInt32
  eflags : UInt32
  segments : SegmentRegisters
  deriving DecidableEq, Repr, Inhabited

structure X64Registers where
  rax : UInt64
  rbx : UInt64
  rcx : UInt64
  rdx : UInt64
  rsi : UInt64
  rdi : UInt64
  r8 : UInt64
  r9 : UInt64
  r10 : UInt64
  r11 : UInt64
  r12 : UInt64
  r13 : UInt64
  r14 : UInt64
  r15 : UInt64
  rip : UInt64
  rsp : UInt64
  rbp : UInt64
  eflags : UInt32
  segments : SegmentRegisters
  deriving DecidableEq, Repr, Inhabited

structure Arm64Registers where
  /-- The numbered registers, of which there are 29. -/
  x : List UInt64
  pc : UInt64
  sp : UInt64
  fp : UInt64
  deriving DecidableEq, Repr, Inhabited

inductive RegisterFile where
  | x86 (registers : X86Registers)
  | x64 (registers : X64Registers)
  | arm64 (registers : Arm64Registers)
  deriving DecidableEq, Repr

/-- The registers of a thread, and which of them are known. -/
structure RegisterContext where
  groups : RegisterGroups
  registers : RegisterFile
  deriving DecidableEq, Repr

namespace RegisterContext

def architecture (c : RegisterContext) : Architecture :=
  match c.registers with
  | .x86 _ => .x86
  | .x64 _ => .x64
  | .arm64 _ => .arm64

/-- The address of the instruction that the thread is at. -/
def pc (c : RegisterContext) : UInt64 :=
  match c.registers with
  | .x86 r => r.eip.toUInt64
  | .x64 r => r.rip
  | .arm64 r => r.pc

end RegisterContext

namespace Report

/-- The flags that have a short name when they are set and another one when they are not. -/
def flagNames : List (UInt32 × String × String) :=
  [(0x100000, "vip", "   "), (0x80000, "vif", "   "), (0x800, "ov", "nv"), (0x400, "dn", "up"),
   (0x200, "ei", "di"), (0x80, "ng", "pl"), (0x40, "zr", "nz"), (0x10, "ac", "na"),
   (0x4, "po", "pe"), (0x1, "cy", "nc")]

/-- The flags register in words: the privilege level for ports, and each flag. -/
def flagsText (flags : UInt32) : String :=
  " ".intercalate <| ("iopl=" ++ hex ((flags >>> 12) &&& 3).toNat) ::
    flagNames.map fun (mask, set, clear) => if flags &&& mask ≠ 0 then set else clear

/-- Names and values of registers, each value with so many digits. -/
def registerLine (digits : Nat) (separator : String) (registers : List (String × Nat)) : String :=
  separator.intercalate (registers.map fun (name, value) => name ++ "=" ++ hexPadded digits value)

/-- The last line, of segments and flags. Without segments the flags keep their column. -/
def segmentsText (g : RegisterGroups) (s : SegmentRegisters) (flags : UInt32) : String :=
  let flags := "efl=" ++ hexPadded 8 flags.toNat
  let blanks (n : Nat) : String := String.ofList (List.replicate n ' ')
  if g.segments then
    registerLine 4 "  " [("cs", s.cs.toNat), ("ss", s.ss.toNat), ("ds", s.ds.toNat),
      ("es", s.es.toNat), ("fs", s.fs.toNat), ("gs", s.gs.toNat)] ++
      if g.control then blanks 13 ++ flags else ""
  else if g.control then blanks 71 ++ flags
  else ""

def x86Text (g : RegisterGroups) (r : X86Registers) : String :=
  (if g.integer then
    registerLine 8 " " [("eax", r.eax.toNat), ("ebx", r.ebx.toNat), ("ecx", r.ecx.toNat),
      ("edx", r.edx.toNat), ("esi", r.esi.toNat), ("edi", r.edi.toNat)] ++ "\n"
  else "") ++
  (if g.control then
    registerLine 8 " " [("eip", r.eip.toNat), ("esp", r.esp.toNat), ("ebp", r.ebp.toNat)] ++
      " " ++ flagsText r.eflags ++ "\n"
  else "") ++
  segmentsText g r.segments r.eflags

def x64Text (g : RegisterGroups) (r : X64Registers) : String :=
  (if g.integer then
    registerLine 16 " " [("rax", r.rax.toNat), ("rbx", r.rbx.toNat), ("rcx", r.rcx.toNat)] ++
      "\n" ++ registerLine 16 " " [("rdx", r.rdx.toNat), ("rsi", r.rsi.toNat),
        ("rdi", r.rdi.toNat)] ++ "\n"
  else "") ++
  (if g.control then
    registerLine 16 " " [("rip", r.rip.toNat), ("rsp", r.rsp.toNat), ("rbp", r.rbp.toNat)] ++ "\n"
  else "") ++
  (if g.integer then
    registerLine 16 " " [(" r8", r.r8.toNat), (" r9", r.r9.toNat), ("r10", r.r10.toNat)] ++ "\n" ++
      registerLine 16 " " [("r11", r.r11.toNat), ("r12", r.r12.toNat), ("r13", r.r13.toNat)] ++
      "\n" ++ registerLine 16 " " [("r14", r.r14.toNat), ("r15", r.r15.toNat)] ++
      (if g.control then " " ++ flagsText r.eflags else "") ++ "\n"
  else if g.control then flagsText r.eflags ++ "\n"
  else "") ++
  segmentsText g r.segments r.eflags

/-- Registers with values in upper case. -/
def upperLine (registers : List (String × UInt64)) : String :=
  " ".intercalate
    (registers.map fun (name, value) => name ++ "=" ++ hexPaddedUpper 16 value.toNat)

/-- The numbered registers, four in a line, and the last one on its own. -/
def numberedText (x : List UInt64) : String :=
  let register (i : Nat) : String × UInt64 := (s!"X{i}", (x[i]?).getD 0)
  String.join ((List.range 7).map fun i =>
    upperLine [register (4 * i), register (4 * i + 1), register (4 * i + 2),
      register (4 * i + 3)] ++ "\n") ++
    upperLine [register 28] ++ "\n"

def arm64Text (g : RegisterGroups) (r : Arm64Registers) : String :=
  (if g.integer then numberedText r.x else "") ++
  (if g.control then upperLine [("pc", r.pc), ("sp", r.sp), ("fp", r.fp)] ++ " \n" else "")

/-- The block of registers, up to an empty line. -/
def registers (c : RegisterContext) : String :=
  "Registers:\n" ++
    (match c.registers with
    | .x86 r => x86Text c.groups r
    | .x64 r => x64Text c.groups r
    | .arm64 r => arm64Text c.groups r) ++
    "\n\n"

end Report

end Postmortem
