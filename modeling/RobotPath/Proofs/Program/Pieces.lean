import RobotPath.Proofs.Decimal.Printed
import RobotPath.Proofs.Program.Lines

/-!
# The numbers in a text

The text of a declaration is made of words, which do not depend on any double, and of
doubles in one of the two notations that a controller reads. So what is printed of the
doubles, and which of them are printed, can be told from a list of such pieces.
-/

namespace RobotPath

/-- A piece of a text: words, or a double in the shortest notation or with a fixed number
of places. -/
inductive Piece where
  | words (text : String)
  | plain (value : Float)
  | fixed (places : Nat) (value : Float)

namespace Piece

def text : Piece → String
  | words text => text
  | plain value => Decimal.plain value
  | fixed places value => Decimal.fixed places value

def number? : Piece → Option Float
  | words _ => none
  | plain value | fixed _ value => some value

/-- A double can be read in the text unless it is not finite. -/
theorem isSome_denoted?_text {piece : Piece} {x : Float} (h : piece.number? = some x) :
    (Decimal.denoted? piece.text).isSome = true ↔ x.isFinite = true := by
  cases piece with
  | words text => cases h
  | plain value =>
      cases h
      exact Decimal.isSome_denoted?_plain x
  | fixed places value =>
      cases h
      exact Decimal.isSome_denoted?_fixed places x

/-- The text that some pieces make. -/
def join (pieces : List Piece) : String := String.join (pieces.map text)

/-- The doubles among some pieces. -/
def numbers (pieces : List Piece) : List Float := pieces.filterMap number?

@[simp] theorem join_nil : join [] = "" := rfl

@[simp] theorem join_cons (piece : Piece) (rest : List Piece) :
    join (piece :: rest) = piece.text ++ join rest := String.join_cons

@[simp] theorem join_append (pieces more : List Piece) :
    join (pieces ++ more) = join pieces ++ join more := by
  rw [join, List.map_append, String.join_append]
  rfl

@[simp] theorem numbers_nil : numbers [] = [] := rfl

@[simp] theorem numbers_words_cons (text : String) (rest : List Piece) :
    numbers (words text :: rest) = numbers rest := rfl

@[simp] theorem numbers_plain_cons (x : Float) (rest : List Piece) :
    numbers (plain x :: rest) = x :: numbers rest := rfl

@[simp] theorem numbers_fixed_cons (places : Nat) (x : Float) (rest : List Piece) :
    numbers (fixed places x :: rest) = x :: numbers rest := rfl

@[simp] theorem numbers_append (pieces more : List Piece) :
    numbers (pieces ++ more) = numbers pieces ++ numbers more := List.filterMap_append

/-- Lines, each with the pieces of its content. -/
def ofLines (contents : List (List Piece)) : List Piece :=
  contents.flatMap fun content => content ++ [words "\n"]

@[simp] theorem join_ofLines (contents : List (List Piece)) :
    join (ofLines contents) = RobotPath.lines (contents.map join) := by
  induction contents with
  | nil => rfl
  | cons content rest ih =>
      have hcons : ofLines (content :: rest) = content ++ [words "\n"] ++ ofLines rest := rfl
      rw [hcons, join_append, join_append, ih, List.map_cons, lines_cons]
      simp [text, line]

@[simp] theorem numbers_ofLines (contents : List (List Piece)) :
    numbers (ofLines contents) = contents.flatMap numbers := by
  induction contents with
  | nil => rfl
  | cons content rest ih =>
      have hcons : ofLines (content :: rest) = content ++ [words "\n"] ++ ofLines rest := rfl
      rw [hcons, numbers_append, numbers_append, ih, List.flatMap_cons]
      exact congrArg (· ++ _) (List.append_nil _)

/-- Labelled doubles, with commas in between. -/
def ofFields : List (String × Float) → List Piece
  | [] => []
  | [(label, value)] => [words s!"{label} ", plain value]
  | (label, value) :: next :: rest =>
      [words s!"{label} ", plain value, words ", "] ++ ofFields (next :: rest)

@[simp] theorem join_ofFields (fields : List (String × Float)) :
    join (ofFields fields) = fieldList Decimal.plain fields := by
  induction fields with
  | nil => rfl
  | cons field rest ih =>
      obtain ⟨label, value⟩ := field
      cases rest with
      | nil => simp [ofFields, fieldList, text]
      | cons next rest =>
          rw [ofFields, join_append, ih]
          simp [fieldList, text, String.append_assoc]

@[simp] theorem numbers_ofFields (fields : List (String × Float)) :
    numbers (ofFields fields) = fields.map Prod.snd := by
  induction fields with
  | nil => rfl
  | cons field rest ih =>
      obtain ⟨label, value⟩ := field
      cases rest with
      | nil => rfl
      | cons next rest =>
          rw [ofFields, numbers_append, ih]
          rfl

end Piece

/-- The numbers that a pose is described by. -/
def Pose.describedFields : Pose → List (String × Float)
  | .joint angles => angles.complete.fields
  | .cartesian frame => frame.fields

theorem Pose.describe_eq (pose : Pose) :
    pose.describe = fieldList Decimal.plain pose.describedFields := by
  cases pose <;> rfl

namespace Declaration

open Piece in
/-- The pieces that a declaration is written from. -/
def pieces : Declaration → List Piece
  | header name => [words (headerText name)]
  | tool t =>
      [words s!"DECL TOOLDATA TOOL_{t.number.toNat} = \x7bM ", plain t.mass, words ", CM \x7b"] ++
        ofFields (["X", "Y", "Z"].zip t.centerOfMass.toList) ++ [words "\x7d\x7d\n"]
  | base b =>
      [words s!"DECL FRAME BASE_{b.number.toNat} = \x7b"] ++ ofFields b.frame.fields ++
        [words "\x7d\n"]
  | speed velocity acceleration =>
      [words "DECL REAL VEL = ", plain velocity, words "\nDECL REAL ACC = ", plain acceleration,
        words "\n"]
  | start s =>
      ofLines
        [[words s!";FOLD STARTPOSITION - BASE IS {s.baseNumber.toNat}, TOOL IS ",
            words s!"{s.toolNumber.toNat}, SPEED IS ", plain s.speedPercent,
            words "%, POSITION IS "] ++ ofFields s.home.describedFields,
          [words "$BWDSTART = FALSE"],
          [words "PDAT_ACT = \x7bVEL ", plain s.speedPercent, words ", ACC ",
            plain s.acceleration, words s!", APO_DIST {approximationDistance}\x7d"],
          [words s!"FDAT_ACT = \x7bTOOL_NO {s.toolNumber.toNat}, ",
            words s!"BASE_NO {s.baseNumber.toNat}, IPO_FRAME #BASE\x7d"],
          [words "BAS(#PTP_PARAMS, ", plain s.speedPercent, words ")"],
          [words ";ENDFOLD"],
          [],
          [words ";FOLD LIN SPEED IS ", plain s.pathSpeed,
            words " m/sec, INTERPOLATION SETTINGS IN FOLD"],
          [words "$VEL.CP=", fixed 4 s.pathSpeed],
          [words s!"$ADVANCE={s.lookAhead.toNat}"],
          [words ";ENDFOLD"]]
  | raw text => [words text]

theorem startText_eq (s : StartSettings) :
    startPositionText s ++ pathSettingsText s = Piece.join (start s).pieces := by
  rw [pathSettingsText_eq, startPositionText, ← lines_append, pieces, Piece.join_ofLines]
  congr 1
  -- Line by line, the same characters.
  simp [← String.toList_inj, Piece.text, braced, Pose.describe_eq]

/-- The pieces make the text of the declaration. -/
theorem text_eq_join_pieces (d : Declaration) : d.text = Piece.join d.pieces := by
  cases d with
  | start s => exact startText_eq s
  | header name => simp [text, pieces, Piece.text]
  | tool t => simp [← String.toList_inj, text, pieces, Piece.text, toolText, line, braced]
  | base b => simp [← String.toList_inj, text, pieces, Piece.text, baseText, line, braced]
  | speed velocity acceleration =>
      simp [← String.toList_inj, text, pieces, Piece.text, lines, line]
  | raw text => simp [Declaration.text, pieces, Piece.text]

theorem numbers_start (s : StartSettings) :
    Piece.numbers (start s).pieces =
      s.speedPercent :: (s.home.describedFields.map Prod.snd ++
        [s.speedPercent, s.acceleration, s.speedPercent, s.pathSpeed, s.pathSpeed]) := by
  simp [pieces]

end Declaration

end RobotPath
