import AvrEmulator.State

/-! Error reports (`error.cpp`): what was reported, with its context, and the
fault PC and instruction the helpers cite. Formatting to text is left out. -/

namespace AvrEmulator

inductive ErrorReport where
  | plain (message : String)
  | file (path message : String)
  | pc (pc : Word) (message : String)
  | pcInstr (pc instruction : Word) (message : String)
  | pcAddr (pc instruction addr : Word) (access detail : String)
  deriving DecidableEq, Repr

/-- The statics of `error.cpp`, with every report written so far, oldest first. -/
structure ErrorState where
  faultPc : Word
  faultInstr : Word
  reports : List ErrorReport
  deriving DecidableEq, Repr

def ErrorState.initial : ErrorState := ⟨0xFFFF, 0xFFFF, []⟩

namespace ErrorState

def emuSetFaultPc (e : ErrorState) (pc : Word) : ErrorState := { e with faultPc := pc }

def emuSetFaultInstr (e : ErrorState) (instr : Word) : ErrorState := { e with faultInstr := instr }

def report (e : ErrorState) (r : ErrorReport) : ErrorState :=
  { e with reports := e.reports ++ [r] }

def emuErrorPc (e : ErrorState) (pc : Word) (message : String) : ErrorState :=
  e.report (.pc pc message)

def emuErrorPcInstr (e : ErrorState) (pc instruction : Word) (message : String) : ErrorState :=
  e.report (.pcInstr pc instruction message)

def emuErrorPcAddr (e : ErrorState) (pc addr : Word) (access detail : String) : ErrorState :=
  e.report (.pcAddr pc e.faultInstr addr access detail)

/-- What `emuGetLastError` shows: the most recent report, if there is one. -/
def lastError (e : ErrorState) : Option ErrorReport := e.reports.getLast?

end ErrorState

end AvrEmulator
