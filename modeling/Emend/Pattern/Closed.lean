import Emend.Pattern.Program

/-!
# Programs that stay within themselves

A program is closed if whatever it goes on to lies in it and whatever it notes has a slot. Only the
last instruction accepts, and every other one has a successor.
-/

namespace Emend

namespace Instr

/-- The addresses at which the instruction at `address` may go on. -/
def successors (address : Nat) : Instr → List Nat
  | .char _ | .oneOf _ | .assert _ | .save _ => [address + 1]
  | .jump target => [target]
  | .split targets => targets
  | .accept => []

/-- Every slot that the instruction notes is below a bound. -/
def NotesBelow (slotCount : Nat) : Instr → Prop
  | .save slot => slot < slotCount
  | _ => True

end Instr

/-- A program that never leaves itself and only notes slots below `slotCount`. -/
structure ClosedProgram (program : List Instr) (slotCount : Nat) : Prop where
  /-- The last instruction accepts. -/
  last : program.getLast? = some .accept
  /-- No other instruction accepts. -/
  once : ∀ address : Nat, program[address]? = some .accept → address + 1 = program.length
  /-- Every successor of an instruction lies in the program. -/
  inside : ∀ (address : Nat) (instr : Instr), program[address]? = some instr →
    ∀ next ∈ instr.successors address, next < program.length
  /-- Every other instruction has a successor. -/
  goesOn : ∀ (address : Nat) (instr : Instr), program[address]? = some instr → instr ≠ .accept →
    instr.successors address ≠ []
  /-- Every slot that is noted exists. -/
  slots : ∀ instr ∈ program, instr.NotesBelow slotCount

end Emend
