import Postmortem.Report.Architecture
import Postmortem.Report.ExceptionCode
import Postmortem.Report.Registers
import Postmortem.Report.Source
import Postmortem.Symbolizer.Live

/-!
# Reports of a process

A crash report describes an exception, the registers of the thread, and its stack. Addresses are
shown with the module and the symbol they lie in, which a symbolizer finds; every report gives the
symbolizer as it is afterwards.
-/
namespace Postmortem.Report

/-- A frame of the stack: an address of code and the first three parameters. -/
structure StackFrame where
  pc : UInt64
  p0 : UInt64 := 0
  p1 : UInt64 := 0
  p2 : UInt64 := 0
  deriving DecidableEq, Repr, Inhabited

/-- An exception as it was raised. -/
structure ExceptionRecord where
  code : UInt32
  address : UInt64
  information : List UInt64
  deriving DecidableEq, Repr

/-- The base and the file name of the module that an address lies in, if its file is known. -/
def moduleName? (w : World) (process : ProcessId) (address : UInt64) (s : LiveSymbolizer) :
    Option (UInt64 × String) × LiveSymbolizer :=
  match s.lookupModule w process address with
  | (.ok record, s) => (record.path.map fun path => (record.base, Path.baseName path), s)
  | (.error _, s) => (none, s)

/-- The first line of a stack. -/
def stackHeader : Architecture → String
  | .x86 => "AddrPC   Params\n"
  | .x64 | .arm64 => "AddrPC           Params\n"

/-- The addresses of a frame. -/
def frameAddresses (arch : Architecture) (f : StackFrame) : String :=
  " ".intercalate ([f.pc, f.p0, f.p1, f.p2].map arch.formatAddress)

/-- What follows the module name of a frame: the symbol and its line, or the distance from the
base of the module. The symbol was found `nudge` bytes before the address; the distance wraps around
where `Checked.frame` stops. -/
def symbolText (base pc nudge : UInt64) : Except LookupError SymbolInfo → String
  | .ok info =>
    "!" ++ info.name ++ "+" ++ Text.hexMarked (info.displacement + nudge).toNat ++
      match info.location with
      | some (file, line) => "  [" ++ file ++ " @ " ++ toString line.toNat ++ "]"
      | none => ""
  | .error _ => "!" ++ Text.hexMarked (pc - base).toNat

/-- The source lines at the symbol of a frame. -/
def frameSource (w : World) (config : RenderConfig) :
    Except LookupError SymbolInfo → String
  | .ok { location := some (file, line), .. } =>
    if config.showSource then
      (snippet? w.files file line config.sourceContextLines).getD ""
    else ""
  | _ => ""

/-- The line of a frame, and perhaps source lines after it. The address of a calling frame is the
one after its call, which may lie in another function or line, so the one before it is looked
up. -/
def frame (w : World) (config : RenderConfig) (process : ProcessId) (arch : Architecture)
    (isCaller : Bool) (f : StackFrame) (s : LiveSymbolizer) : String × LiveSymbolizer :=
  let nudge : UInt64 := if isCaller && config.nudgeReturnAddresses then 1 else 0
  match moduleName? w process f.pc s with
  | (none, s) => (frameAddresses arch f ++ "\n", s)
  | (some (base, name), s) =>
    let (answer, s) := s.resolve w process (f.pc - nudge)
    (frameAddresses arch f ++ "  " ++ name ++ symbolText base f.pc nudge answer ++ "\n" ++
      frameSource w config answer, s)

/-- The frames of a stack. All but the first one are calling frames. -/
def frames (w : World) (config : RenderConfig) (process : ProcessId) (arch : Architecture) :
    (isCaller : Bool) → List StackFrame → LiveSymbolizer → String × LiveSymbolizer
  | _, [], s => ("", s)
  | isCaller, f :: rest, s =>
    let (first, s) := frame w config process arch isCaller f s
    let (others, s) := frames w config process arch true rest s
    (first ++ others, s)

/-- A stack: a header, the frames, and an empty line. -/
def stack (w : World) (config : RenderConfig) (process : ProcessId) (arch : Architecture)
    (fs : List StackFrame) (s : LiveSymbolizer) : String × LiveSymbolizer :=
  let (text, s) := frames w config process arch false fs s
  (stackHeader arch ++ text ++ "\n", s)

/-- Registers and stack of a thread. -/
def crash (w : World) (config : RenderConfig) (process : ProcessId) (context : RegisterContext)
    (fs : List StackFrame) (s : LiveSymbolizer) : String × LiveSymbolizer :=
  let (text, s) := stack w config process context.architecture fs s
  (registers context ++ text, s)

/-- What an exception says beyond its name. -/
def exceptionDetail (arch : Architecture) (e : ExceptionRecord) : String :=
  match e.information with
  | [] => ""
  | first :: rest =>
    (match rest.head? with
    | some second =>
      if isAccessFault e.code then
        " " ++ accessVerb first ++ " location " ++ arch.formatAddress second
      else ""
    | none => "") ++
    if e.code = fastFailCode then
      s!" with code {first.toUInt32.toNat} ({fastFailName first.toUInt32})"
    else ""

/-- The sentence about an exception, and an empty line. -/
def exception (w : World) (process : ProcessId) (image : Option String) (arch : Architecture)
    (e : ExceptionRecord) (s : LiveSymbolizer) : String × LiveSymbolizer :=
  let (name, s) := moduleName? w process e.address s
  let place :=
    match name with
    | some (_, name) => " in module " ++ name
    | none => ""
  ((image.map Path.baseName).getD "Application" ++ " caused " ++ exceptionPhrase e.code ++
    " at location " ++ arch.formatAddress e.address ++ place ++ exceptionDetail arch e ++
    ".\n\n", s)

end Postmortem.Report
