import Mathlib.Data.Nat.Notation

/-!
# Stage control

A `StageControl` is four atomic cells that a worker and the holders of its handle
share. Commands and states are stored as `u8`; a load converts back.

`set_command` is two stores, to `command` and then to a flag that depends on the
command, and other threads can run between them. The two are `storeCommand` and
`storeFlag` here.
-/

namespace SensorBridge.Pipeline

/-- Commands that can be sent to a stage. -/
inductive StageCommand where
  /-- Continue normal processing. -/
  | run
  /-- Pause processing (stop consuming input). -/
  | pause
  /-- Resume processing after pause. -/
  | resume
  /-- Reset stage state. -/
  | reset
  /-- Shutdown the stage gracefully. -/
  | shutdown
  deriving DecidableEq, Repr

/-- State of a stage. -/
inductive StageState where
  /-- Stage is created but not started. -/
  | created
  /-- Stage is starting up. -/
  | starting
  /-- Stage is running normally. -/
  | running
  /-- Stage is paused. -/
  | paused
  /-- Stage is shutting down. -/
  | stopping
  /-- Stage has stopped. -/
  | stopped
  /-- Stage encountered an error. -/
  | error
  deriving DecidableEq, Repr

/-- `cmd as u8`. -/
def StageCommand.toU8 : StageCommand → UInt8
  | run => 0
  | pause => 1
  | resume => 2
  | reset => 3
  | shutdown => 4

/-- `impl From<u8> for StageCommand`. -/
def StageCommand.ofU8 : UInt8 → StageCommand
  | 0 => run
  | 1 => pause
  | 2 => resume
  | 3 => reset
  | 4 => shutdown
  | _ => run

/-- `state as u8`. -/
def StageState.toU8 : StageState → UInt8
  | created => 0
  | starting => 1
  | running => 2
  | paused => 3
  | stopping => 4
  | stopped => 5
  | error => 6

/-- `impl From<u8> for StageState`. -/
def StageState.ofU8 : UInt8 → StageState
  | 0 => created
  | 1 => starting
  | 2 => running
  | 3 => paused
  | 4 => stopping
  | 5 => stopped
  | 6 => error
  | _ => created

@[simp] theorem StageCommand.ofU8_toU8 (cmd : StageCommand) : ofU8 cmd.toU8 = cmd := by
  cases cmd <;> rfl

@[simp] theorem StageState.ofU8_toU8 (state : StageState) : ofU8 state.toU8 = state := by
  cases state <;> rfl

/-- Shared control state for a stage. -/
structure StageControl where
  /-- Current command for the stage. -/
  commandCell : UInt8
  /-- Current state of the stage. -/
  stateCell : UInt8
  /-- Whether shutdown has been requested. -/
  shutdown : Bool
  /-- Whether the stage is paused. -/
  paused : Bool

namespace StageControl

/-- `StageControl::new`. -/
def new : StageControl := ⟨StageCommand.run.toU8, StageState.created.toU8, false, false⟩

/-- The current command. -/
def command (c : StageControl) : StageCommand := .ofU8 c.commandCell

/-- The current state. -/
def state (c : StageControl) : StageState := .ofU8 c.stateCell

/-- `set_state`. -/
def setState (c : StageControl) (state : StageState) : StageControl := { c with stateCell := state.toU8 }

/-- The first store of `set_command`. -/
def storeCommand (c : StageControl) (cmd : StageCommand) : StageControl :=
  { c with commandCell := cmd.toU8 }

/-- The second store of `set_command`. -/
def storeFlag (c : StageControl) : StageCommand → StageControl
  | .shutdown => { c with shutdown := true }
  | .pause => { c with paused := true }
  | .resume | .run => { c with paused := false }
  | .reset => c

variable (c : StageControl) (cmd : StageCommand) (state : StageState)

@[simp] theorem command_new : new.command = .run := rfl

@[simp] theorem command_storeCommand : (c.storeCommand cmd).command = cmd := StageCommand.ofU8_toU8 cmd

@[simp] theorem shutdown_storeCommand : (c.storeCommand cmd).shutdown = c.shutdown := rfl

@[simp] theorem paused_storeCommand : (c.storeCommand cmd).paused = c.paused := rfl

@[simp] theorem command_setState : (c.setState state).command = c.command := rfl

@[simp] theorem shutdown_setState : (c.setState state).shutdown = c.shutdown := rfl

@[simp] theorem paused_setState : (c.setState state).paused = c.paused := rfl

@[simp] theorem state_setState : (c.setState state).state = state := StageState.ofU8_toU8 state

@[simp] theorem command_storeFlag : (c.storeFlag cmd).command = c.command := by cases cmd <;> rfl

/-- Only `Shutdown` touches the shutdown flag, and nothing clears it. -/
@[simp] theorem shutdown_storeFlag :
    (c.storeFlag cmd).shutdown = (decide (cmd = .shutdown) || c.shutdown) := by
  cases cmd <;> rfl

/-- `Pause` sets the paused flag; `Resume` and `Run` clear it. -/
theorem paused_storeFlag : (c.storeFlag cmd).paused =
    if cmd = .pause then true else if cmd = .resume ∨ cmd = .run then false else c.paused := by
  cases cmd <;> rfl

end StageControl

end SensorBridge.Pipeline
