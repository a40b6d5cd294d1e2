import RobotPath.Proofs.Motion.Pose
import RobotPath.Proofs.Program.Pieces

/-!
# The numbers in an instruction

A controller reads numbers in positional notation only: digits, maybe with a minus in
front and a point in between. What an instruction prints of a double is such a number
unless the double is not finite, and the doubles that it prints are those that it holds.
-/

namespace RobotPath

/-- A run of digits, with at least one of them. -/
structure IsDigits (text : List Char) : Prop where
  ne_nil : text ≠ []
  isDigit : ∀ c ∈ text, c.isDigit = true

/-- A number without a sign: digits, and digits after the point if there is one. -/
inductive IsUnsigned : List Char → Prop where
  | whole {digits : List Char} (h : IsDigits digits) : IsUnsigned digits
  | point {digits places : List Char} (hdigits : IsDigits digits) (hplaces : IsDigits places) :
      IsUnsigned (digits ++ '.' :: places)

/-- A number in positional notation, with a minus or without one. -/
def IsPositional (text : String) : Prop :=
  ∃ body, IsUnsigned body ∧ (text.toList = body ∨ text.toList = '-' :: body)

namespace Decimal

theorem isDigits_toDigits (n : Nat) : IsDigits (Nat.toDigits 10 n) :=
  ⟨Nat.toDigits_ne_nil, fun _ => isDigit_of_mem_toDigits⟩

theorem isDigits_padded (width n : Nat) : IsDigits (padded width n) :=
  ⟨List.append_ne_nil_of_right_ne_nil _ Nat.toDigits_ne_nil, fun _ => isDigit_of_mem_padded⟩

theorem isUnsigned_placed (places units : Nat) : IsUnsigned (placed places units) := by
  unfold placed
  split
  next => exact .whole (isDigits_toDigits units)
  next => exact .point (isDigits_toDigits _) (isDigits_padded places _)

theorem isUnsigned_positional (d : Decimal) : IsUnsigned d.positional := by
  unfold positional
  split
  next => exact isUnsigned_placed _ _
  next => exact isUnsigned_placed _ _

theorem isPositional_written {body : Nat → Int → List Char}
    (hbody : ∀ mantissa exponent, IsUnsigned (body mantissa exponent)) {x : Float}
    (h : x.isFinite = true) : IsPositional (written body x) := by
  obtain ⟨negative, mantissa, exponent, hreading⟩ := (Reading.isFinite_iff x).mp h
  refine ⟨body mantissa exponent, hbody mantissa exponent, ?_⟩
  rw [written, hreading, String.toList_ofList]
  cases negative with
  | false => exact .inl rfl
  | true => exact .inr rfl

end Decimal

theorem isPositional_toString (n : Nat) : IsPositional (toString n) :=
  ⟨_, .whole (Decimal.isDigits_toDigits n), .inl (by simp)⟩

namespace Piece

theorem isPositional_text {piece : Piece} {x : Float} (h : piece.number? = some x)
    (hfinite : x.isFinite = true) : IsPositional piece.text := by
  cases piece with
  | words text => cases h
  | plain value =>
      cases h
      exact Decimal.isPositional_written (fun _ _ => Decimal.isUnsigned_positional _) hfinite
  | fixed places value =>
      cases h
      exact Decimal.isPositional_written (fun _ _ => Decimal.isUnsigned_placed _ _) hfinite

/-- The text of pieces in between others. -/
theorem join_intercalate (separator : List Piece) (parts : List (List Piece)) :
    join (separator.intercalate parts) = (join separator).intercalate (parts.map join) := by
  induction parts with
  | nil => rfl
  | cons part rest ih =>
      cases rest with
      | nil => simp
      | cons next rest =>
          rw [List.intercalate_cons_cons, join_append, join_append, ih]
          simp

theorem numbers_intercalate {separator : List Piece} (h : numbers separator = [])
    (parts : List (List Piece)) :
    numbers (separator.intercalate parts) = parts.flatMap numbers := by
  induction parts with
  | nil => rfl
  | cons part rest ih =>
      cases rest with
      | nil => simp
      | cons next rest =>
          rw [List.intercalate_cons_cons, numbers_append, numbers_append, ih, h]
          simp

end Piece

namespace Instruction

/-- The doubles that an instruction holds. An integer is printed as the nearest one. -/
def floats : Instruction → List Float
  | pointToPoint target => target.toList
  | continuous target => target.toList
  | assign _ value => value.number?.toList
  | pathSpeed x | analogOutput _ x | wait x => [x]
  | lookAhead _ | digitalOutput _ _ | waitForInput _ _ | comment _ | print _ | raw _ => []

open Piece

/-- Coordinates in a move, with commas in between. -/
def coordinatePieces (fields : List (String × Float)) : List Piece :=
  [words "\x7b"] ++
    [words ", "].intercalate (fields.map fun (label, value) => [words s!"{label} ", fixed 4 value]) ++
    [words "\x7d"]

/-- A value in an assignment: a word for a switch, or else a number with six places. -/
def valuePiece : ProcessValue → Piece
  | .switch on => words (ProcessValue.switchLiteral on)
  | .integer value => fixed 6 (ProcessValue.nearest value)
  | .decimal value => fixed 6 value

/-- The pieces that an instruction is written from. -/
def pieces : Instruction → List Piece
  | pointToPoint target => [words "PTP "] ++ coordinatePieces target.fields ++ [words "\n"]
  | continuous target => [words "LIN "] ++ coordinatePieces target.fields ++ [words " C_DIS\n"]
  | pathSpeed speed => [words "$VEL.CP=", fixed 4 speed, words "\n"]
  | assign name value => [words s!"{name} = ", valuePiece value, words "\n"]
  | analogOutput number value => [words s!"$ANOUT[{number.toNat}] = ", plain value, words "\n"]
  | wait seconds => [words "WAIT SEC ", plain seconds, words "\n"]
  | i => [words i.text]

theorem join_coordinatePieces (fields : List (String × Float)) :
    join (coordinatePieces fields) = coordinates fields := by
  have hfields : (fields.map fun (label, value) => [words s!"{label} ", fixed 4 value]).map join =
      fields.map fun (label, value) => s!"{label} {Decimal.fixed 4 value}" := by
    rw [List.map_map]
    refine List.map_congr_left fun field _ => ?_
    simp [Piece.text]
  rw [coordinatePieces, join_append, join_append, join_intercalate, hfields]
  simp [Piece.text, coordinates, braced, fieldList]

theorem numbers_coordinatePieces (fields : List (String × Float)) :
    numbers (coordinatePieces fields) = fields.map Prod.snd := by
  rw [coordinatePieces, numbers_append, numbers_append, numbers_intercalate rfl, List.flatMap_map,
    List.map_eq_flatMap]
  simp

theorem text_valuePiece (value : ProcessValue) : (valuePiece value).text = value.literal := by
  cases value <;> rfl

theorem number?_valuePiece (value : ProcessValue) : (valuePiece value).number? = value.number? := by
  cases value <;> rfl

/-- The pieces make the text of the instruction. -/
theorem text_eq_join_pieces (i : Instruction) : i.text = join i.pieces := by
  cases i with
  | pointToPoint target | continuous target =>
      simp [text, pieces, join_coordinatePieces, Piece.text, line, String.append_assoc]
  | assign name value =>
      rw [pieces, join_cons, join_cons, text_valuePiece]
      simp [text, Piece.text, line, String.append_assoc]
  | pathSpeed | analogOutput | wait =>
      simp [text, pieces, pathSpeedLine, Piece.text, line, String.append_assoc]
  | _ => simp [pieces, Piece.text]

/-- The numbers in the text of an instruction are the doubles that it holds. -/
theorem numbers_pieces (i : Instruction) : numbers i.pieces = i.floats := by
  cases i with
  | pointToPoint target =>
      rw [pieces, numbers_append, numbers_append, numbers_coordinatePieces, Pose.map_snd_fields]
      exact List.append_nil _
  | continuous target =>
      rw [pieces, numbers_append, numbers_append, numbers_coordinatePieces]
      exact List.append_nil _
  | assign name value =>
      rw [pieces, numbers_words_cons, numbers, List.filterMap_cons, number?_valuePiece, floats]
      cases value.number? <;> rfl
  | _ => rfl

end Instruction

end RobotPath
