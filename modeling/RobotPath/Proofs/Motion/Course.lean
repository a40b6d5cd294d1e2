import Mathlib.Computability.Language
import RobotPath.Motion.Phase

/-!
# Which moves may follow one another

The moves of a program form a word over the two interpolations: point-to-point
moves, one continuous stretch, and point-to-point moves again, of which the end may
be missing. A phase stands for the words that lead to it, so whether a move is legal
can be told from the moves before it, without a phase.
-/

namespace RobotPath

open scoped Computability

/-- One or more moves of one kind. -/
def Interpolation.stretch (i : Interpolation) : Language Interpolation := {[i]} * {[i]}∗

/-- The moves of a program up to some point: none, an approach, a path after it, or a
return after that. -/
def course : Language Interpolation :=
  1 + Interpolation.pointToPoint.stretch +
    Interpolation.pointToPoint.stretch * Interpolation.continuous.stretch +
    Interpolation.pointToPoint.stretch * Interpolation.continuous.stretch *
      Interpolation.pointToPoint.stretch

/-- How often a move of the kind `after` comes next after one of the kind `before`. -/
def changes (before after : Interpolation) (moves : List Interpolation) : Nat :=
  (moves.zip moves.tail).count (before, after)

namespace Interpolation

/-- A word that ends with a stretch ends with a move of its kind, and without that move
the stretch goes on or has not begun. -/
theorem concat_mem_mul_stretch_iff (words : Language Interpolation) {moves : List Interpolation}
    {i j : Interpolation} :
    moves ++ [j] ∈ words * i.stretch ↔ j = i ∧ (moves ∈ words ∨ moves ∈ words * i.stretch) := by
  have hlast : words * i.stretch = (words + words * i.stretch) * {[i]} := by
    calc words * i.stretch
        = words * ({[i]}∗ * {[i]}) := by rw [stretch, Language.mul_self_kstar_comm]
      _ = words * ((1 + i.stretch) * {[i]}) := by
          rw [stretch, Language.one_add_self_mul_kstar_eq_kstar]
      _ = (words + words * i.stretch) * {[i]} := by rw [← mul_assoc, mul_add, mul_one]
  rw [hlast, Language.mem_mul, ← Language.mem_add, ← hlast]
  constructor
  · rintro ⟨front, hfront, last, rfl, heq⟩
    obtain ⟨rfl, hij⟩ := List.append_inj' heq rfl
    exact ⟨(List.singleton_inj.mp hij).symm, hfront⟩
  · rintro ⟨rfl, hfront⟩
    exact ⟨moves, hfront, [j], rfl, rfl⟩

theorem nil_notMem_mul_stretch (words : Language Interpolation) (i : Interpolation) :
    [] ∉ words * i.stretch := by
  rw [stretch, ← Language.mul_self_kstar_comm, ← mul_assoc, Language.mem_mul]
  rintro ⟨front, -, last, rfl, heq⟩
  exact List.append_ne_nil_of_right_ne_nil front (List.cons_ne_nil i []) heq

theorem concat_mem_stretch_iff {moves : List Interpolation} {i j : Interpolation} :
    moves ++ [j] ∈ i.stretch ↔ j = i ∧ (moves = [] ∨ moves ∈ i.stretch) := by
  simpa only [one_mul, Language.mem_one] using concat_mem_mul_stretch_iff 1

end Interpolation

theorem changes_concat (before after : Interpolation) (moves : List Interpolation)
    (i : Interpolation) :
    changes before after (moves ++ [i]) = changes before after moves +
      if moves.getLast? = some before ∧ i = after then 1 else 0 := by
  induction moves with
  | nil => rfl
  | cons first rest ih =>
      cases rest with
      | nil =>
          simp [changes, List.count_cons]
      | cons second rest =>
          have hcons (tail : List Interpolation) :
              changes before after (first :: second :: tail) =
                changes before after (second :: tail) +
                  if (first, second) = (before, after) then 1 else 0 := by
            simp [changes, List.count_cons]
          rw [List.cons_append, List.cons_append, hcons, ← List.cons_append, ih, hcons,
            List.getLast?_cons_cons]
          omega

namespace Phase

/-- The words that lead to a phase. -/
def words : Phase → Language Interpolation
  | .notStarted => 1
  | .approach => Interpolation.pointToPoint.stretch
  | .path => Interpolation.pointToPoint.stretch * Interpolation.continuous.stretch
  | .homeward =>
      Interpolation.pointToPoint.stretch * Interpolation.continuous.stretch *
        Interpolation.pointToPoint.stretch

theorem mem_course_iff {moves : List Interpolation} :
    moves ∈ course ↔ ∃ phase : Phase, moves ∈ phase.words := by
  simp only [course, Language.mem_add]
  constructor
  · rintro (((h | h) | h) | h)
    · exact ⟨.notStarted, h⟩
    · exact ⟨.approach, h⟩
    · exact ⟨.path, h⟩
    · exact ⟨.homeward, h⟩
  · rintro ⟨phase, h⟩
    cases phase with
    | notStarted => exact .inl (.inl (.inl h))
    | approach => exact .inl (.inl (.inr h))
    | path => exact .inl (.inr h)
    | homeward => exact .inr h

/-- A word leads to a phase when its last move is legal after the others. -/
theorem concat_mem_words_iff {moves : List Interpolation} {i : Interpolation} {after : Phase} :
    moves ++ [i] ∈ after.words ↔
      ∃ phase : Phase, moves ∈ phase.words ∧ phase.next? i = some after := by
  have hexists {p : Phase → Prop} :
      (∃ phase, p phase) ↔ p .notStarted ∨ p .approach ∨ p .path ∨ p .homeward := by
    constructor
    · rintro ⟨phase, h⟩
      cases phase <;> simp [h]
    · rintro (h | h | h | h) <;> exact ⟨_, h⟩
  rw [hexists]
  cases after with
  | notStarted => cases i <;> simp [words, next?, Language.mem_one]
  | approach =>
      simp only [words, Interpolation.concat_mem_stretch_iff]
      cases i <;> simp [next?, Language.mem_one]
  | path =>
      simp only [words, Interpolation.concat_mem_mul_stretch_iff]
      cases i <;> simp [next?]
  | homeward =>
      simp only [words, Interpolation.concat_mem_mul_stretch_iff]
      cases i <;> simp [next?]

theorem nil_mem_words_iff {phase : Phase} : [] ∈ phase.words ↔ phase = .notStarted := by
  cases phase with
  | notStarted => simp [words]
  | approach => simpa [words] using Interpolation.nil_notMem_mul_stretch 1 .pointToPoint
  | path => simpa [words] using Interpolation.nil_notMem_mul_stretch _ .continuous
  | homeward => simpa [words] using Interpolation.nil_notMem_mul_stretch _ .pointToPoint

/-- What holds at the start and is kept by every legal move holds of all words that lead
to a phase. -/
theorem words_induction {p : Phase → List Interpolation → Prop} (nil : p .notStarted [])
    (concat : ∀ {phase after : Phase} {moves i}, phase.next? i = some after → p phase moves →
      p after (moves ++ [i])) {phase : Phase} {moves : List Interpolation}
    (h : moves ∈ phase.words) : p phase moves := by
  induction moves using List.reverseRecOn generalizing phase with
  | nil => exact nil_mem_words_iff.mp h ▸ nil
  | append_singleton moves i ih =>
      obtain ⟨before, hmoves, hnext⟩ := concat_mem_words_iff.mp h
      exact concat hnext (ih hmoves)

/-- A word leads to one phase only. -/
theorem eq_of_mem_words {phase phase' : Phase} {moves : List Interpolation}
    (h : moves ∈ phase.words) (h' : moves ∈ phase'.words) : phase = phase' := by
  have hfold {phase : Phase} (h : moves ∈ phase.words) :
      moves.foldlM next? .notStarted = some phase := by
    apply words_induction (p := fun phase moves => moves.foldlM next? .notStarted = some phase)
      rfl _ h
    intro phase after moves i hnext ih
    simp [List.foldlM_append, ih, hnext]
  exact Option.some_inj.mp ((hfold h).symm.trans (hfold h'))

/-- What a phase tells of the moves that led to it. -/
structure Recalls (phase : Phase) (moves : List Interpolation) : Prop where
  last : moves.getLast? = phase.interpolation?
  opened : phase ≠ .notStarted → .pointToPoint ∈ moves
  departures : changes .pointToPoint .continuous moves =
    if phase = .path ∨ phase = .homeward then 1 else 0
  returns : changes .continuous .pointToPoint moves = if phase = .homeward then 1 else 0

theorem Recalls.concat {phase after : Phase} {moves : List Interpolation} {i : Interpolation}
    (h : phase.Recalls moves) (hnext : phase.next? i = some after) :
    after.Recalls (moves ++ [i]) where
  last := by rw [List.getLast?_concat, interpolation?_next hnext]
  opened _ := by
    cases phase with
    | notStarted =>
        cases i with
        | pointToPoint => exact List.mem_append_right moves List.mem_cons_self
        | continuous => cases hnext
    | approach | path | homeward =>
        exact List.mem_append_left [i] (h.opened Phase.noConfusion)
  departures := by
    rw [changes_concat, h.last, h.departures]
    cases phase <;> cases i <;> cases hnext <;> rfl
  returns := by
    rw [changes_concat, h.last, h.returns]
    cases phase <;> cases i <;> cases hnext <;> rfl

theorem recalls_of_mem_words {phase : Phase} {moves : List Interpolation}
    (h : moves ∈ phase.words) : phase.Recalls moves :=
  words_induction ⟨rfl, fun hne => absurd rfl hne, rfl, rfl⟩
    (fun hnext ih => ih.concat hnext) h

end Phase

theorem mem_course_of_append {moves more : List Interpolation} (h : moves ++ more ∈ course) :
    moves ∈ course := by
  induction more using List.reverseRecOn with
  | nil => rwa [List.append_nil] at h
  | append_singleton more i ih =>
      rw [← List.append_assoc, Phase.mem_course_iff] at h
      obtain ⟨after, hafter⟩ := h
      obtain ⟨phase, hmoves, -⟩ := Phase.concat_mem_words_iff.mp hafter
      exact ih (Phase.mem_course_iff.mpr ⟨phase, hmoves⟩)

/-- A continuous move comes after the first point-to-point move and before the return. -/
theorem before_continuous {front back : List Interpolation}
    (h : front ++ .continuous :: back ∈ course) :
    .pointToPoint ∈ front ∧ changes .continuous .pointToPoint front = 0 := by
  have hwhole : front ++ [.continuous] ++ back ∈ course := by rwa [List.append_assoc]
  have hfront : front ++ [.continuous] ∈ course := mem_course_of_append hwhole
  obtain ⟨after, hafter⟩ := Phase.mem_course_iff.mp hfront
  obtain ⟨phase, hmoves, hnext⟩ := Phase.concat_mem_words_iff.mp hafter
  have hrecalls := Phase.recalls_of_mem_words hmoves
  have hphase : phase ≠ .notStarted ∧ phase ≠ .homeward := by
    constructor <;> rintro rfl <;> cases hnext
  exact ⟨hrecalls.opened hphase.1, hrecalls.returns.trans (if_neg hphase.2)⟩

end RobotPath
