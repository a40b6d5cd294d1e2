import RobotPath.Program.Instruction
import RobotPath.Compiler.Request
import RobotPath.Proofs.Decimal.Denotation
import RobotPath.Proofs.Decimal.Nearest

/-!
# What a controller makes of a program

A controller has a register for every variable and one for the path speed. An
assignment stores what its literal denotes, so two values that are written alike
are one value to it; among numbers these are the ones that compare equal.
-/

namespace RobotPath

/-- What a register can hold: a switch, or a number that is known exactly. -/
inductive Setting where
  | switch (on : Bool)
  | number (value : ℚ)
deriving DecidableEq

namespace Setting

/-- What a literal of a program denotes. -/
def ofLiteral? (text : String) : Option Setting :=
  if text = ProcessValue.switchLiteral true then some (.switch true)
  else if text = ProcessValue.switchLiteral false then some (.switch false)
  else (Decimal.denoted? text).map .number

theorem ofLiteral?_switchLiteral (on : Bool) :
    ofLiteral? (ProcessValue.switchLiteral on) = some (.switch on) := by
  cases on <;> decide

/-- Numbers are not mistaken for switches. -/
theorem ofLiteral?_of_denoted {text : String} {value : ℚ} (h : Decimal.denoted? text = some value) :
    ofLiteral? text = some (.number value) := by
  have hne (on : Bool) : text ≠ ProcessValue.switchLiteral on := by
    rintro rfl
    cases on <;> cases h
  rw [ofLiteral?, if_neg (hne true), if_neg (hne false), h]
  rfl

theorem ofLiteral?_fixed_of_zero {x : Float} {negative : Bool}
    (h : Reading.ofFloat x = .finite negative 0 0) :
    ofLiteral? (Decimal.fixed 6 x) = some (.number 0) := by
  have hdenoted := Decimal.denoted?_fixed 6 h
  have hunits : Decimal.unitsAt 6 0 0 = 0 := rfl
  rw [hunits, Nat.cast_zero, zero_div, mul_zero] at hdenoted
  exact ofLiteral?_of_denoted hdenoted

/-- Doubles that compare equal are written as one number, zeros of either sign
included. -/
theorem ofLiteral?_fixed_eq {x y : Float} (h : (x == y) = true) :
    ofLiteral? (Decimal.fixed 6 x) = ofLiteral? (Decimal.fixed 6 y) := by
  cases Reading.eq_or_zeros_of_beq h with
  | inl heq => rw [heq]
  | inr hzeros =>
      obtain ⟨_, _, hx, hy⟩ := hzeros
      rw [ofLiteral?_fixed_of_zero hx, ofLiteral?_fixed_of_zero hy]

/-- Values that compare equal are one setting, whatever kinds they are stored as. -/
theorem ofLiteral?_eq_of_beq {a b : ProcessValue} (h : (a == b) = true) :
    ofLiteral? a.literal = ofLiteral? b.literal := by
  change ProcessValue.beq a b = true at h
  cases a with
  | switch on =>
      cases b with
      | switch off => rw [eq_of_beq h]
      | integer | decimal => cases h
  | integer n =>
      cases b with
      | switch => cases h
      | integer m => rw [eq_of_beq h]
      | decimal y => exact ofLiteral?_fixed_eq h
  | decimal x =>
      cases b with
      | switch => cases h
      | integer m => exact ofLiteral?_fixed_eq h
      | decimal y => exact ofLiteral?_fixed_eq h

theorem exists_ofLiteral?_fixed {x : Float} (h : x.isFinite = true) :
    ∃ setting, ofLiteral? (Decimal.fixed 6 x) = some setting := by
  obtain ⟨_, _, _, hreading⟩ := (Reading.isFinite_iff x).mp h
  exact ⟨_, ofLiteral?_of_denoted (Decimal.denoted?_fixed 6 hreading)⟩

/-- A value that a program can hold denotes something. -/
theorem exists_ofLiteral? {value : ProcessValue} {text : String} (h : value.literal? = .ok text) :
    ∃ setting, ofLiteral? value.literal = some setting := by
  cases value with
  | switch on => exact ⟨_, ofLiteral?_switchLiteral on⟩
  | integer n => exact exists_ofLiteral?_fixed (Reading.isFinite_nearest n)
  | decimal x =>
      rw [ProcessValue.literal?] at h
      split at h
      next hfinite => exact exists_ofLiteral?_fixed hfinite
      next => cases h

end Setting

/-- The registers that a program can change. -/
structure Controller where
  registers : String → Option Setting
  pathSpeed : Float

namespace Controller

/-- The controller after the declarations: no variable has a value yet. -/
def declared (pathSpeed : Float) : Controller := ⟨fun _ => none, pathSpeed⟩

/-- What an instruction changes. -/
def execute (k : Controller) : Instruction → Controller
  | .assign name value =>
      { k with registers := fun key =>
          if key = name then Setting.ofLiteral? value.literal else k.registers key }
  | .pathSpeed speed => { k with pathSpeed := speed }
  | _ => k

/-- The controller after some instructions. -/
def after (k : Controller) (instructions : List Instruction) : Controller :=
  instructions.foldl execute k

/-- The moves of some instructions, each with the registers that it is made with. -/
def moves (k : Controller) : List Instruction → List (Instruction × Controller)
  | [] => []
  | i :: rest =>
      (if i.interpolation?.isSome then [(i, k)] else []) ++ (k.execute i).moves rest

variable {k : Controller}

theorem after_cons (i : Instruction) (rest : List Instruction) :
    k.after (i :: rest) = (k.execute i).after rest := rfl

theorem after_append (first rest : List Instruction) :
    k.after (first ++ rest) = (k.after first).after rest :=
  List.foldl_append

theorem moves_append (first rest : List Instruction) :
    k.moves (first ++ rest) = k.moves first ++ (k.after first).moves rest := by
  induction first generalizing k with
  | nil => rfl
  | cons i first ih => rw [List.cons_append, moves, ih, moves, List.append_assoc, after_cons]

/-- Storing what is stored already changes nothing. -/
theorem execute_assign_of_eq {name : String} {value : ProcessValue}
    (h : k.registers name = Setting.ofLiteral? value.literal) :
    k.execute (.assign name value) = k := by
  have hregisters : (fun key =>
      if key = name then Setting.ofLiteral? value.literal else k.registers key) = k.registers := by
    funext key
    split
    next heq => rw [heq, h]
    next => rfl
  rw [execute, hregisters]

theorem after_withPause (settleTime : Option Float) (i : Instruction) :
    k.after (Request.withPause settleTime i) = k.execute i := by
  cases settleTime <;> rfl

theorem moves_withPause_assign (settleTime : Option Float) (name : String) (value : ProcessValue) :
    k.moves (Request.withPause settleTime (.assign name value)) = [] := by
  cases settleTime <;> rfl

end Controller

end RobotPath
