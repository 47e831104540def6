import Postmortem.Checked.Module
import Postmortem.Symbolizer.Call

/-!
# Sessions in checked arithmetic

Where arithmetic is checked, a call of a session may stop: while the image of a module is copied out
of its process, while a source looks for a symbol, or while a distance in a report is added up. It
does what it does elsewhere otherwise. When a call has stopped, nothing comes after it.
-/
namespace Postmortem

/-- Whether checked arithmetic stops while a module is asked. -/
def Question.stops (chain : SourceChain) (q : SymbolQuery) : Question → Bool
  | symbol => SourceChain.stops q chain
  | ownSymbol => ImageSymbol.stops q

namespace Checked

/-- What is in the module of a record, which is read now if it was not before. -/
def contents (w : World) (process : ProcessId) (record : ModuleRecord) (s : LiveSymbolizer) :
    Option ModuleImage :=
  match record.contents with
  | some m => some m
  | none => build w.files w.processes s.imageLimit process record.base record.path

def ask (k : Question) (w : World) (process : ProcessId) (address : UInt64) (s : LiveSymbolizer) :
    Option (Except LookupError SymbolInfo × LiveSymbolizer) := do
  if let (.ok record, _) := s.lookupModule w process address then
    let m ← contents w process record s
    guard (!k.stops s.chain ⟨process, address, record.base, m⟩)
  return k.ask w process address s

def resolveInFile (files : Files) (path : String) (rva : UInt64) (s : Symbolizer) :
    Option (Except LookupError SymbolInfo × Symbolizer) := do
  let (process, o) := (s.offline.getD (.start s.live.config)).processFor path
  let _ ← ask .symbol ⟨files, o.processes⟩ process rva o.symbolizer
  return s.resolveInFile files path rva

/-! ## Reports -/

open Report

def frame (w : World) (config : RenderConfig) (process : ProcessId) (arch : Architecture)
    (isCaller : Bool) (f : StackFrame) (s : LiveSymbolizer) : Option (String × LiveSymbolizer) := do
  let nudge : UInt64 := if isCaller && config.nudgeReturnAddresses then 1 else 0
  if let (some _, s) := moduleName? w process f.pc s then
    if let (.ok info, _) ← ask .symbol w process (f.pc - nudge) s then
      let _ ← add64 info.displacement nudge
  return Report.frame w config process arch isCaller f s

def frames (w : World) (config : RenderConfig) (process : ProcessId) (arch : Architecture) :
    (isCaller : Bool) → List StackFrame → LiveSymbolizer → Option (String × LiveSymbolizer)
  | _, [], s => return ("", s)
  | isCaller, f :: rest, s => do
    let (first, s) ← frame w config process arch isCaller f s
    let (others, s) ← frames w config process arch true rest s
    return (first ++ others, s)

/-- The text of a report. -/
def write (w : World) (config : RenderConfig) (s : LiveSymbolizer) (request : Request) :
    Option (String × LiveSymbolizer) := do
  match request with
  | .frame process arch isCaller f => frame w config process arch isCaller f s
  | .stack process arch fs =>
    let (text, s) ← frames w config process arch false fs s
    return (stackHeader arch ++ text ++ "\n", s)
  | .crash process context fs =>
    let arch := context.architecture
    let (text, s) ← frames w config process arch false fs s
    return (registers context ++ (stackHeader arch ++ text ++ "\n"), s)
  | .exception .. => return request.write w config s

/-! ## Calls -/

/-- The reply to a call, and the session after it. -/
def call (s : Session) (c : Call) : Option (Reply × Session) := do
  match c with
  | .operation (.ask k process address) =>
    let (answer, live) ← ask k s.world process address s.symbolizer.live
    return (.symbol answer, { s with symbolizer := { s.symbolizer with live } })
  | .operation (.resolveInFile path rva) =>
    let (answer, symbolizer) ← resolveInFile s.world.files path rva s.symbolizer
    return (.symbol answer, { s with symbolizer })
  | .operation (.report config request) =>
    let (text, live) ← write s.world config s.symbolizer.live request
    return (.text text, { s with symbolizer := { s.symbolizer with live } })
  | _ => return (s.reply c, s.after c)

/-- Calls with the replies to them. -/
def replies : Session → List Call → Option (List (Call × Reply))
  | _, [] => return []
  | s, c :: rest => do
    let (reply, s) ← call s c
    return (c, reply) :: (← replies s rest)

end Checked

end Postmortem
