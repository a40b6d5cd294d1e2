import RobotPath.Program.Basic

/-!
# The lines of a program

Whoever reads a program reads it line by line, so a text says what was meant only
if nothing that is written into a line brings a line feed along. Numbers never do;
names can be any text at all.
-/

namespace RobotPath

/-- A text that stays within its line. -/
def OneLine (text : String) : Prop := '\n' ∉ text.toList

/-- A text in which the closing line of a program stands by itself. -/
def ClosesEarly (text : String) : Prop := Program.endMarker.toList ∈ text.toList.splitOn '\n'

theorem oneLine_iff {text : String} : OneLine text ↔ '\n' ∉ text.toList := Iff.rfl

/-! ## Texts without line feeds

A line is made of literals and of texts that are computed. There is a simp lemma for
each of the latter, so that `simp` finds no line feed in the whole.
-/

@[simp] theorem toString_string (text : String) : toString text = text := rfl

@[simp] theorem lineFeed_notMem_toDigits (n : Nat) : '\n' ∉ Nat.toDigits 10 n := fun h => by
  cases Nat.isDigit_of_mem_toDigits (by decide) (by decide) h

namespace Decimal

@[simp] theorem lineFeed_notMem_placed (places units : Nat) : '\n' ∉ placed places units := by
  unfold placed padded
  split
  next => exact lineFeed_notMem_toDigits units
  next => simp

@[simp] theorem lineFeed_notMem_positional (d : Decimal) : '\n' ∉ d.positional := by
  unfold positional
  split
  next => exact lineFeed_notMem_placed _ _
  next => exact lineFeed_notMem_placed _ _

theorem lineFeed_notMem_written {body : Nat → Int → List Char} (h : ∀ m e, '\n' ∉ body m e)
    (x : Float) : '\n' ∉ (written body x).toList := by
  have hsigned (negative : Bool) {text : List Char} (htext : '\n' ∉ text) :
      '\n' ∉ signed negative text := by
    cases negative <;> simpa [signed] using htext
  unfold written
  rw [String.toList_ofList]
  split
  next => simp
  next => exact hsigned _ (by simp)
  next => exact hsigned _ (h _ _)

@[simp] theorem lineFeed_notMem_fixed (places : Nat) (x : Float) :
    '\n' ∉ (fixed places x).toList :=
  lineFeed_notMem_written (fun _ _ => lineFeed_notMem_placed _ _) x

@[simp] theorem lineFeed_notMem_plain (x : Float) : '\n' ∉ (plain x).toList :=
  lineFeed_notMem_written (fun _ _ => lineFeed_notMem_positional _) x

end Decimal

namespace ProcessValue

@[simp] theorem lineFeed_notMem_switchLiteral (on : Bool) : '\n' ∉ (switchLiteral on).toList := by
  cases on <;> simp [switchLiteral]

@[simp] theorem lineFeed_notMem_literal (value : ProcessValue) : '\n' ∉ value.literal.toList := by
  cases value with
  | switch on => exact lineFeed_notMem_switchLiteral on
  | integer | decimal => exact Decimal.lineFeed_notMem_fixed 6 _

end ProcessValue

theorem notMem_intercalate {c : Char} {separator : List Char} {parts : List (List Char)}
    (hseparator : c ∉ separator) (h : ∀ part ∈ parts, c ∉ part) :
    c ∉ separator.intercalate parts := by
  induction parts with
  | nil => exact List.not_mem_nil
  | cons part rest ih =>
      have hrest := ih fun later hlater => h later (List.mem_cons_of_mem part hlater)
      cases rest with
      | nil => simpa using h
      | cons next rest =>
          rw [List.intercalate_cons_cons]
          simp only [List.mem_append, not_or]
          exact ⟨⟨h part List.mem_cons_self, hseparator⟩, hrest⟩

theorem lineFeed_notMem_intercalate {separator : String} {texts : List String}
    (hseparator : '\n' ∉ separator.toList) (h : ∀ text ∈ texts, '\n' ∉ text.toList) :
    '\n' ∉ (separator.intercalate texts).toList := by
  rw [String.toList_intercalate]
  exact notMem_intercalate hseparator (List.forall_mem_map.mpr h)

/-- Labelled numbers stay within a line when their labels do. -/
theorem lineFeed_notMem_fieldList {number : Float → String} {fields : List (String × Float)}
    (hnumber : ∀ x, '\n' ∉ (number x).toList) (h : ∀ field ∈ fields, '\n' ∉ field.1.toList) :
    '\n' ∉ (fieldList number fields).toList := by
  refine lineFeed_notMem_intercalate (by simp) fun text htext => ?_
  obtain ⟨field, hfield, rfl⟩ := List.mem_map.mp htext
  simp [h field hfield, hnumber]

theorem lineFeed_notMem_label {labels : List String} {values : List Float}
    (h : ∀ label ∈ labels, '\n' ∉ label.toList) :
    ∀ field ∈ labels.zip values, '\n' ∉ field.1.toList :=
  fun _ hfield => h _ (List.of_mem_zip hfield).1

theorem AxisAngles.lineFeed_notMem_fields (angles : AxisAngles) :
    ∀ field ∈ angles.fields, '\n' ∉ field.1.toList :=
  lineFeed_notMem_label (by simp [axisLabels, externalLabels])

theorem Frame.lineFeed_notMem_fields (frame : Frame) :
    ∀ field ∈ frame.fields, '\n' ∉ field.1.toList :=
  lineFeed_notMem_label (by simp [labels])

theorem Pose.lineFeed_notMem_fields (pose : Pose) :
    ∀ field ∈ pose.fields, '\n' ∉ field.1.toList := by
  cases pose with
  | joint angles => exact angles.lineFeed_notMem_fields
  | cartesian frame => exact frame.lineFeed_notMem_fields

@[simp] theorem Pose.lineFeed_notMem_describe (pose : Pose) : '\n' ∉ pose.describe.toList := by
  cases pose with
  | joint angles =>
      exact lineFeed_notMem_fieldList Decimal.lineFeed_notMem_plain
        angles.complete.lineFeed_notMem_fields
  | cartesian frame =>
      exact lineFeed_notMem_fieldList Decimal.lineFeed_notMem_plain frame.lineFeed_notMem_fields

theorem Instruction.lineFeed_notMem_coordinates {fields : List (String × Float)}
    (h : ∀ field ∈ fields, '\n' ∉ field.1.toList) : '\n' ∉ (coordinates fields).toList := by
  simp [coordinates, braced, lineFeed_notMem_fieldList (Decimal.lineFeed_notMem_fixed 4) h]

/-! ## Lines inside a program -/

/-- The content of a line that is not the closing one. -/
structure InnerLine (content : String) : Prop where
  oneLine : OneLine content
  ne_endMarker : content.toList ≠ Program.endMarker.toList

theorem innerLine_iff {content : String} :
    InnerLine content ↔ '\n' ∉ content.toList ∧ content.toList ≠ ['E', 'N', 'D'] :=
  ⟨fun h => ⟨h.oneLine, h.ne_endMarker⟩, fun h => ⟨h.1, h.2⟩⟩

theorem lines_cons (content : String) (contents : List String) :
    lines (content :: contents) = line content ++ lines contents := by
  rw [← String.toList_inj]
  simp [lines]

theorem lines_append (contents more : List String) :
    lines (contents ++ more) = lines contents ++ lines more := by
  rw [lines, List.map_append, String.join_append]
  rfl

/-- A text of whole lines, none of which is the closing one. -/
def InnerLines (text : String) : Prop :=
  ∃ contents, text = lines contents ∧ ∀ content ∈ contents, InnerLine content

namespace InnerLines

variable {a b : String}

theorem line {content : String} (h : InnerLine content) : InnerLines (line content) :=
  ⟨[content], by rw [lines_cons]; exact String.append_empty.symm, by simpa using h⟩

theorem append (ha : InnerLines a) (hb : InnerLines b) : InnerLines (a ++ b) := by
  obtain ⟨contents, rfl, hcontents⟩ := ha
  obtain ⟨more, rfl, hmore⟩ := hb
  refine ⟨contents ++ more, (lines_append contents more).symm, fun content h => ?_⟩
  cases List.mem_append.mp h with
  | inl h => exact hcontents content h
  | inr h => exact hmore content h

end InnerLines

namespace Declaration

theorem innerLines_toolText (tool : Tool) : InnerLines (toolText tool) := by
  have hcenter : '\n' ∉
      (fieldList Decimal.plain (["X", "Y", "Z"].zip tool.centerOfMass.toList)).toList :=
    lineFeed_notMem_fieldList Decimal.lineFeed_notMem_plain (lineFeed_notMem_label (by simp))
  exact .line (innerLine_iff.mpr (by simp [braced, hcenter]))

theorem innerLines_baseText (base : Base) : InnerLines (baseText base) := by
  have hframe : '\n' ∉ (fieldList Decimal.plain base.frame.fields).toList :=
    lineFeed_notMem_fieldList Decimal.lineFeed_notMem_plain base.frame.lineFeed_notMem_fields
  exact .line (innerLine_iff.mpr (by simp [braced, hframe]))

theorem innerLines_startPositionText (s : StartSettings) : InnerLines (startPositionText s) :=
  ⟨_, rfl, by simp [innerLine_iff, braced]⟩

theorem pathSettingsText_eq (s : StartSettings) :
    pathSettingsText s = lines
      [s!";FOLD LIN SPEED IS {Decimal.plain s.pathSpeed} m/sec, INTERPOLATION SETTINGS IN FOLD",
        s!"$VEL.CP={Decimal.fixed 4 s.pathSpeed}", s!"$ADVANCE={s.lookAhead.toNat}",
        ";ENDFOLD"] := by
  simp [pathSettingsText, pathSpeedLine, lookAheadLine, lines, String.append_assoc]

theorem innerLines_pathSettingsText (s : StartSettings) : InnerLines (pathSettingsText s) :=
  ⟨_, pathSettingsText_eq s, by simp [innerLine_iff]⟩

/-- Only the line that names the program can hold a line feed. -/
theorem headerText_eq (name : String) :
    ∃ front back, headerText name = lines (front ++ s!"DEF {name}()" :: back) ∧
      (∀ content ∈ front, InnerLine content) ∧ ∀ content ∈ back, InnerLine content :=
  ⟨[_, _, _, _], _, rfl, by simp [innerLine_iff], by simp [innerLine_iff]⟩

end Declaration

/-! ## The closing line -/

theorem infix_intercalate {piece : List Char} {pieces : List (List Char)} (h : piece ∈ pieces) :
    '\n' :: piece ++ ['\n'] <:+: '\n' :: ['\n'].intercalate pieces ++ ['\n'] := by
  induction pieces with
  | nil => cases h
  | cons first rest ih =>
      cases rest with
      | nil =>
          obtain rfl := List.mem_singleton.mp h
          exact ⟨[], [], by simp⟩
      | cons next rest =>
          rw [List.intercalate_cons_cons]
          cases List.mem_cons.mp h with
          | inl heq =>
              subst heq
              exact ⟨[], ['\n'].intercalate (next :: rest) ++ ['\n'], by simp⟩
          | inr hmem => exact (ih hmem).trans ⟨'\n' :: first, [], by simp⟩

/-- A piece of a text is one that line feeds enclose, once there is one at either end
of the text. -/
theorem mem_splitOn_iff {piece text : List Char} (hne : piece ≠ []) (hpiece : '\n' ∉ piece) :
    piece ∈ text.splitOn '\n' ↔ '\n' :: piece ++ ['\n'] <:+: '\n' :: text ++ ['\n'] := by
  constructor
  · intro h
    have henclosed := infix_intercalate h
    rwa [List.intercalate_splitOn] at henclosed
  · rintro ⟨before, after, heq⟩
    -- The line feeds at either end only add an empty piece there.
    have htext : ('\n' :: text ++ ['\n']).splitOn '\n' = [] :: (text.splitOn '\n' ++ [[]]) := by
      rw [← List.nil_append ('\n' :: text ++ ['\n']), List.cons_append,
        List.splitOn_append_cons_self, List.splitOn_append_cons_self]
      rfl
    have hpieces : (before ++ ('\n' :: piece ++ ['\n']) ++ after).splitOn '\n' =
        before.splitOn '\n' ++ piece :: after.splitOn '\n' := by
      rw [List.append_assoc, List.cons_append, List.cons_append, List.append_assoc,
        List.splitOn_append_cons_self, List.singleton_append,
        List.splitOn_append_cons_self_of_not_mem hpiece]
    have hmem : piece ∈ [] :: (text.splitOn '\n' ++ [[]]) := by
      rw [← htext, ← heq, hpieces]
      exact List.mem_append_right _ List.mem_cons_self
    simpa [hne] using hmem

theorem infix_concat_iff_of_last {needle text : List Char} {a : Char} (hne : needle ≠ [])
    (hlast : needle.getLast? ≠ some a) : needle <:+: text ++ [a] ↔ needle <:+: text := by
  rw [List.infix_concat_iff, or_iff_right]
  rw [List.suffix_concat_iff]
  rintro (hnil | ⟨front, rfl, -⟩)
  · exact hne hnil
  · exact hlast List.getLast?_concat

/-- The name of a program closes it early when the closing line is a line of the name
itself. -/
theorem closesEarly_title_iff (name : String) :
    ClosesEarly s!"DEF {name}()" ↔ "\nEND\n".toList <:+: name.toList := by
  have htitle : (s!"DEF {name}()").toList =
      'D' :: 'E' :: 'F' :: ' ' :: (name.toList ++ ['('] ++ [')']) := by
    simp only [String.toList_append, List.append_assoc]
    rfl
  have hend : '\n' :: Program.endMarker.toList ++ ['\n'] = ['\n', 'E', 'N', 'D', '\n'] := by decide
  have hfront (text : List Char) : ['\n', 'E', 'N', 'D', '\n'] <:+:
      '\n' :: 'D' :: 'E' :: 'F' :: ' ' :: text ↔ ['\n', 'E', 'N', 'D', '\n'] <:+: text := by
    simp [List.infix_cons_iff]
  -- The closing line does not reach over the parentheses either.
  have hback (text : List Char) :
      ['\n', 'E', 'N', 'D', '\n'] <:+: text ++ ['('] ++ [')'] ++ ['\n'] ↔
        ['\n', 'E', 'N', 'D', '\n'] <:+: text := by
    have hsuffix : ¬ ['\n', 'E', 'N', 'D', '\n'] <:+ text ++ ['('] ++ [')'] ++ ['\n'] := by
      rintro ⟨front, heq⟩
      have hparenthesis := congrArg (fun text => text.dropLast.getLast?) heq
      simp [List.dropLast_append_of_ne_nil, List.getLast?_append] at hparenthesis
    rw [List.infix_concat_iff, or_iff_right hsuffix,
      infix_concat_iff_of_last (by decide) (by decide),
      infix_concat_iff_of_last (by decide) (by decide)]
  have hneedle : "\nEND\n".toList = ['\n', 'E', 'N', 'D', '\n'] := by decide
  rw [ClosesEarly, mem_splitOn_iff (by decide) (by decide), htitle, hend, hneedle]
  exact (hfront (name.toList ++ ['('] ++ [')'] ++ ['\n'])).trans (hback name.toList)

theorem InnerLine.not_closesEarly {content : String} (h : InnerLine content) :
    ¬ ClosesEarly content := by
  intro hcloses
  rw [ClosesEarly, List.splitOn_eq_singleton h.oneLine, List.mem_singleton] at hcloses
  exact h.ne_endMarker hcloses.symm

theorem splitOn_lines (contents : List String) (rest : String) :
    (lines contents ++ rest).toList.splitOn '\n' =
      contents.flatMap (fun content => content.toList.splitOn '\n') ++
        rest.toList.splitOn '\n' := by
  induction contents with
  | nil => simp [lines]
  | cons content contents ih =>
      have hsplit := List.splitOn_append_cons_self (a := '\n') content.toList
        (lines contents ++ rest).toList
      rw [ih] at hsplit
      rw [lines_cons, List.flatMap_cons, List.append_assoc, ← hsplit]
      simp [line]

/-- The closing line stands at the end of a text and nowhere else when no line before
it closes early. -/
theorem closing_iff (contents : List String) :
    (∃ before, (lines contents ++ line Program.endMarker).toList.splitOn '\n' =
        before ++ [Program.endMarker.toList, []] ∧ Program.endMarker.toList ∉ before) ↔
      ∀ content ∈ contents, ¬ ClosesEarly content := by
  have hend : (line Program.endMarker).toList.splitOn '\n' = [Program.endMarker.toList, []] := by
    decide
  rw [splitOn_lines, hend]
  constructor
  · rintro ⟨before, heq, hbefore⟩ content hcontent hcloses
    rw [← List.append_cancel_right heq] at hbefore
    exact hbefore (List.mem_flatMap.mpr ⟨content, hcontent, hcloses⟩)
  · intro h
    refine ⟨_, rfl, fun hmem => ?_⟩
    obtain ⟨content, hcontent, hcloses⟩ := List.mem_flatMap.mp hmem
    exact h content hcontent hcloses

end RobotPath
