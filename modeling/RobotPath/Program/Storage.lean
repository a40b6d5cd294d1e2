import RobotPath.Program.Basic

/-!
# Storing programs

A program is written to a device that takes as much as it likes of what it is
offered, may fail at any offer and may fail to flush. The bytes that were taken
are always the first ones of the text, whatever the device does.
-/

namespace RobotPath

/-- A device that bytes can be written to, by what it does in each of its states. -/
structure Device (σ : Type) where
  /-- How many of the offered bytes are taken, from the front. More than were
  offered means all of them. -/
  accept : σ → List UInt8 → Except StorageFault Nat × σ
  /-- Makes what was taken permanent. -/
  flush : σ → Except StorageFault Unit × σ

/-- What came of an attempt to write. -/
structure Transfer (σ : Type) where
  /-- All bytes that the device took, in order. -/
  taken : List UInt8
  outcome : Except StorageFault Unit
  state : σ

/-- The outcome as that of an operation of this library. -/
def Transfer.result {σ : Type} (t : Transfer σ) : Except MotionError Unit :=
  t.outcome.mapError .storage

namespace Device

variable {σ : Type}

/-- Offers the bytes until all are taken, or until the device fails or takes
nothing. What the device took before is given in reverse. -/
def offer (d : Device σ) (before : List UInt8) (state : σ) : List UInt8 → Transfer σ
  | [] => ⟨before.reverse, .ok (), state⟩
  | byte :: rest =>
      match d.accept state (byte :: rest) with
      | (.error fault, after) => ⟨before.reverse, .error fault, after⟩
      | (.ok 0, after) => ⟨before.reverse, .error .nothingTaken, after⟩
      | (.ok (more + 1), after) =>
          d.offer ((rest.take more).reverse ++ byte :: before) after (rest.drop more)
termination_by bytes => bytes.length
decreasing_by simp only [List.length_drop, List.length_cons]; omega

/-- Offers all the bytes to a device that has not taken any. -/
def writeAll (d : Device σ) (state : σ) (bytes : List UInt8) : Transfer σ :=
  d.offer [] state bytes

/-- Writes all the bytes and flushes, unless writing failed. -/
def write (d : Device σ) (state : σ) (bytes : List UInt8) : Transfer σ :=
  let sent := d.writeAll state bytes
  match sent.outcome with
  | .error _ => sent
  | .ok () =>
      let (outcome, after) := d.flush sent.state
      { sent with outcome, state := after }

/-- The first bytes, when there is a bound on how many. -/
def within (most : Option Nat) (bytes : List UInt8) : List UInt8 :=
  match most with
  | some count => bytes.take count
  | none => bytes

/-- A device with room for `limit` bytes, if there is a limit, that takes at most
`chunk` of them at once and may be unable to flush. Its state counts the bytes. -/
def limited (limit chunk : Option Nat) (flushFails : Bool) : Device Nat where
  accept held offered :=
    if limit.any (· ≤ held) then (.error (.device "disk full"), held)
    else
      let taken := (within (limit.map (· - held)) (within chunk offered)).length
      (.ok taken, held + taken)
  flush held := (if flushFails then .error (.device "flush failed") else .ok (), held)

/-- A file: it takes everything and keeps it after what it holds. -/
def file : Device (List UInt8) where
  accept held offered := (.ok offered.length, held ++ offered)
  flush held := (.ok (), held)

end Device

/-- What a path in a file system leads to. -/
inductive Place where
  /-- Nothing yet, in a directory. -/
  | vacant
  | file (content : List UInt8)
  | directory
  /-- The directory does not exist. -/
  | nowhere
deriving Repr, DecidableEq

namespace Program

def bytes (p : Program) : List UInt8 := p.text.toUTF8.data.toList

def writeTo {σ : Type} (p : Program) (d : Device σ) (state : σ) : Transfer σ :=
  d.write state p.bytes

/-- Stores the program in a file. One that is there already starts afresh. -/
def save (p : Program) (place : Place) : Except MotionError Place :=
  match place with
  | .directory => .error (.storage .isDirectory)
  | .nowhere => .error (.storage .noDirectory)
  | .vacant | .file _ => do
      let sent := p.writeTo Device.file []
      sent.result
      return .file sent.state

end Program

end RobotPath
