import Postmortem.Text.Hex

/-!
# Names of exceptions
-/
namespace Postmortem.Report

/-- The codes of exceptions that have a name. -/
def exceptionNames : List (UInt32 × String) :=
  [(0xC0000005, "Access Violation"), (0xC0000006, "In Page Error"),
   (0xC0000008, "Invalid Handle"), (0xC000001D, "Illegal Instruction"),
   (0xC0000025, "Cannot Continue"), (0xC0000026, "Invalid Disposition"),
   (0xC000008C, "Array bounds exceeded"), (0xC000008D, "Floating-point denormal operand"),
   (0xC000008E, "Floating-point division by zero"), (0xC000008F, "Floating-point inexact result"),
   (0xC0000090, "Floating-point invalid operation"), (0xC0000091, "Floating-point overflow"),
   (0xC0000092, "Floating-point stack check"), (0xC0000093, "Floating-point underflow"),
   (0xC0000094, "Integer division by zero"), (0xC0000095, "Integer overflow"),
   (0xC0000096, "Privileged instruction"), (0xC00000FD, "Stack Overflow"),
   (0xC0000194, "Possible deadlock condition"), (0xC0000409, "Fast Fail"),
   (0xC000041D, "Fatal User Callback Exception"), (0xC0000420, "Assertion failure"),
   (0xE0434F4D, "CLR exception"), (0xE06D7363, "C++ exception handling exception"),
   (0x80000001, "Guard Page Exception"), (0x80000002, "Alignment Fault"),
   (0x80000003, "Breakpoint"), (0x80000004, "Single Step"),
   (0x4000001F, "Breakpoint"), (0x40000015, "Fast Application Exit"),
   (0x40010003, "Terminate Thread"), (0x40010004, "Terminate Process"),
   (0x40010005, "Control+C"), (0x40010008, "Control+Break"),
   (0x406D1388, "Thread Name Exception"),
   (1717, "Unknown Interface"), (1722, "Server Unavailable")]

def exceptionName? (code : UInt32) : Option String := exceptionNames.lookup code

/-- Why a process ended itself at once, by number. -/
def fastFailNames : List String :=
  ["LEGACY_GS_VIOLATION", "VTGUARD_CHECK_FAILURE", "STACK_COOKIE_CHECK_FAILURE",
   "CORRUPT_LIST_ENTRY", "INCORRECT_STACK", "INVALID_ARG", "GS_COOKIE_INIT", "FATAL_APP_EXIT",
   "RANGE_CHECK_FAILURE", "UNSAFE_REGISTRY_ACCESS"]

def fastFailName (code : UInt32) : String :=
  (fastFailNames[code.toNat]?).getD "INVALID_FAST_FAIL_CODE"

/-- The exceptions that tell how memory was accessed, and where. -/
def isAccessFault (code : UInt32) : Bool := code = 0xC0000005 || code = 0xC0000006

/-- The exception of a process that ended itself at once. -/
def fastFailCode : UInt32 := 0xC0000409

/-- How memory was accessed. -/
def accessVerb (kind : UInt64) : String :=
  if kind = 0 then "Reading from"
  else if kind = 1 then "Writing to"
  else if kind = 8 then "DEP violation at"
  else "Accessing"

/-- The article before a name. -/
def article (name : String) : String :=
  if name.toList.head?.any ['A', 'E', 'I', 'O', 'U'].contains then "an" else "a"

/-- The name of an exception with its article, or its code. -/
def exceptionPhrase (code : UInt32) : String :=
  match exceptionName? code with
  | some name => article name ++ " " ++ name
  | none => "an Unknown [0x" ++ Text.hexPaddedUpper 0 code.toNat ++ "] Exception"

end Postmortem.Report
