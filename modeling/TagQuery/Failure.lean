import TagQuery.Glob

/-! Failures as they are reported: a stable code and a message. -/
namespace TagQuery

inductive Code where
  | openFailed
  | schemaInitFailed
  | readFailed
  | writeFailed
  | serializeFailed
  | invalidPattern
  deriving DecidableEq, Repr

def Code.name : Code → String
  | .openFailed => "open_failed"
  | .schemaInitFailed => "schema_init_failed"
  | .readFailed => "read_failed"
  | .writeFailed => "write_failed"
  | .serializeFailed => "serialize_failed"
  | .invalidPattern => "invalid_pattern"

structure Failure where
  code : Code
  message : String
  deriving DecidableEq, Repr

structure Report where
  code : String
  message : String
  deriving DecidableEq, Repr

namespace Failure

/-- A failure while doing something, with what caused it. -/
def during (code : Code) (context cause : String) : Failure :=
  ⟨code, context ++ ": " ++ cause⟩

def display (f : Failure) : String :=
  f.message

def report (f : Failure) : Report :=
  ⟨f.code.name, f.message⟩

end Failure

def Report.display (r : Report) : String :=
  r.message ++ " (" ++ r.code ++ ")"

/-- A result with its failure as it is reported. -/
def reported {α : Type} : Except Failure α → Except Report α
  | .ok a => .ok a
  | .error f => .error f.report

def Glob.Oversize.failure (o : Glob.Oversize) : Failure :=
  ⟨.invalidPattern, o.message⟩

end TagQuery
