import Rv32.Privilege
import Rv32.Word

/-!
# Trap causes

The synchronous exceptions and the interrupts of the machine, their codes in
the cause registers, and their names. Codes are distinct within each kind, and
the top bit of the cause value tells the two kinds apart.
-/

namespace Rv32

/-- A condition raised by an instruction. -/
inductive Exception where
  | instructionAddressMisaligned
  | instructionAccessFault
  | illegalInstruction
  | breakpoint
  | loadAddressMisaligned
  | loadAccessFault
  | storeAddressMisaligned
  | storeAccessFault
  | environmentCallFromUser
  | environmentCallFromSupervisor
  | environmentCallFromMachine
  | instructionPageFault
  | loadPageFault
  | storePageFault
  deriving DecidableEq, Repr

namespace Exception

def all : List Exception :=
  [instructionAddressMisaligned, instructionAccessFault, illegalInstruction, breakpoint,
    loadAddressMisaligned, loadAccessFault, storeAddressMisaligned, storeAccessFault,
    environmentCallFromUser, environmentCallFromSupervisor, environmentCallFromMachine,
    instructionPageFault, loadPageFault, storePageFault]

def code : Exception → Nat
  | instructionAddressMisaligned => 0
  | instructionAccessFault => 1
  | illegalInstruction => 2
  | breakpoint => 3
  | loadAddressMisaligned => 4
  | loadAccessFault => 5
  | storeAddressMisaligned => 6
  | storeAccessFault => 7
  | environmentCallFromUser => 8
  | environmentCallFromSupervisor => 9
  | environmentCallFromMachine => 11
  | instructionPageFault => 12
  | loadPageFault => 13
  | storePageFault => 15

def name : Exception → String
  | instructionAddressMisaligned => "InstructionAddressMisaligned"
  | instructionAccessFault => "InstructionAccessFault"
  | illegalInstruction => "IllegalInstruction"
  | breakpoint => "Breakpoint"
  | loadAddressMisaligned => "LoadAddressMisaligned"
  | loadAccessFault => "LoadAccessFault"
  | storeAddressMisaligned => "StoreOrAmoAddressMisaligned"
  | storeAccessFault => "StoreOrAmoAccessFault"
  | environmentCallFromUser => "EnvironmentCallFromUMode"
  | environmentCallFromSupervisor => "EnvironmentCallFromSMode"
  | environmentCallFromMachine => "EnvironmentCallFromMMode"
  | instructionPageFault => "InstructionPageFault"
  | loadPageFault => "LoadPageFault"
  | storePageFault => "StoreOrAmoPageFault"

def environmentCallFrom : Level → Exception
  | .user => environmentCallFromUser
  | .supervisor => environmentCallFromSupervisor
  | .machine => environmentCallFromMachine

theorem code_injective {a b : Exception} (h : a.code = b.code) : a = b := by
  revert h
  cases a <;> cases b <;> decide

theorem code_lt (e : Exception) : e.code < 16 := by
  cases e <;> decide

end Exception

/-- A condition raised from outside the instruction stream. -/
inductive Interrupt where
  | supervisorSoftware
  | machineSoftware
  | supervisorTimer
  | machineTimer
  | supervisorExternal
  | machineExternal
  deriving DecidableEq, Repr

namespace Interrupt

def all : List Interrupt :=
  [supervisorSoftware, machineSoftware, supervisorTimer, machineTimer, supervisorExternal,
    machineExternal]

def code : Interrupt → Nat
  | supervisorSoftware => 1
  | machineSoftware => 3
  | supervisorTimer => 5
  | machineTimer => 7
  | supervisorExternal => 9
  | machineExternal => 11

def name : Interrupt → String
  | supervisorSoftware => "SupervisorSoftwareInterrupt"
  | machineSoftware => "MachineSoftwareInterrupt"
  | supervisorTimer => "SupervisorTimerInterrupt"
  | machineTimer => "MachineTimerInterrupt"
  | supervisorExternal => "SupervisorExternalInterrupt"
  | machineExternal => "MachineExternalInterrupt"

theorem code_injective {a b : Interrupt} (h : a.code = b.code) : a = b := by
  revert h
  cases a <;> cases b <;> decide

theorem code_lt (i : Interrupt) : i.code < 12 := by
  cases i <;> decide

end Interrupt

/-- What a trap is taken for. -/
inductive Cause where
  | exception (e : Exception)
  | interrupt (i : Interrupt)
  deriving DecidableEq, Repr

namespace Cause

def interruptBit : Word := 0x80000000

def value : Cause → Word
  | exception e => BitVec.ofNat 32 e.code
  | interrupt i => interruptBit ||| BitVec.ofNat 32 i.code

def text : Cause → String
  | exception e => s!"Exception({e.name})"
  | interrupt i => s!"Interrupt({i.name})"

end Cause

end Rv32
