import RobotPath.Proofs.Compiler.Calls

/-!
# Parts of a tracker

A tracker keeps the value of each variable, the path speed and the phase of the moves.
What it answers to a call on one of them follows from the earlier calls on that one,
whatever calls come in between. A value that is kept gives way only to one that differs
from it, so the latest news is what is kept.
-/

namespace RobotPath

/-- What a tracker keeps apart from the rest. -/
inductive Part where
  | value (name : String)
  | pathSpeed
  | moves
deriving DecidableEq, Repr

/-- The part that a call is about. -/
def Call.part : Call → Part
  | .observeVariable name _ => .value name
  | .observePathSpeed _ => .pathSpeed
  | .enter _ => .moves

/-- The value that a call observes, if it is one of that variable. -/
def Call.valueOf? (name : String) : Call → Option ProcessValue
  | .observeVariable key value => if key = name then some value else none
  | .observePathSpeed _ | .enter _ => none

/-- The path speed that a call observes. -/
def Call.speed? : Call → Option Float
  | .observePathSpeed speed => some speed
  | .observeVariable .. | .enter _ => none

/-- What a call gives back. -/
inductive Answer where
  /-- Whether what was observed is news. -/
  | news (changed : Bool)
  | moved (outcome : Except MotionError Unit)

def Answer.isNews : Answer → Bool
  | .news changed => changed
  | .moved _ => false

namespace Tracker

/-- What the tracker answers to a call. -/
def answer (t : Tracker) : Call → Answer
  | .observeVariable name value => .news (t.observeVariable? name value).isSome
  | .observePathSpeed speed => .news (t.observePathSpeed? speed).isSome
  | .enter i => .moved ((t.enter i).map fun _ => ())

/-- Two trackers keep the same in one part. -/
def AgreeOn (part : Part) (t u : Tracker) : Prop :=
  match part with
  | .value name => t.value? name = u.value? name
  | .pathSpeed => t.pathSpeed = u.pathSpeed
  | .moves => t.phase = u.phase

variable {part : Part} {t u v : Tracker} {call : Call}

theorem AgreeOn.refl (part : Part) (t : Tracker) : AgreeOn part t t := by
  cases part <;> exact Eq.refl _

theorem AgreeOn.symm (h : AgreeOn part t u) : AgreeOn part u t := by
  cases part <;> exact Eq.symm h

theorem AgreeOn.trans (htu : AgreeOn part t u) (huv : AgreeOn part u v) : AgreeOn part t v := by
  cases part <;> exact Eq.trans htu huv

theorem AgreeOn.of_eq (h : t = u) : AgreeOn part t u :=
  h ▸ AgreeOn.refl part t

/-! ## Places that keep the latest value -/

/-- A place of a tracker where the latest of some values is kept, and the calls that
observe such a value. -/
structure Cell (α : Type) where
  kept : Tracker → Option α
  observed? : Call → Option α

namespace Cell

/-- The values that are news in the course of some calls. -/
def recorded {α : Type} (cell : Cell α) (t : Tracker) : List Call → List α
  | [] => []
  | call :: rest =>
      ((cell.observed? call).filter fun _ => (t.answer call).isNews).toList ++
        cell.recorded (t.afterCall call) rest

/-- A value that equals the one that is kept is no news and changes nothing. Any other
takes its place, and nothing else does. -/
structure Debounces {α : Type} [BEq α] (cell : Cell α) : Prop where
  known : ∀ {t call value}, cell.observed? call = some value →
    (cell.kept t).any (· == value) = true → t.answer call = .news false ∧ t.afterCall call = t
  fresh : ∀ {t call value}, cell.observed? call = some value →
    ¬ (cell.kept t).any (· == value) = true →
      t.answer call = .news true ∧ cell.kept (t.afterCall call) = some value
  other : ∀ {t call}, cell.observed? call = none → cell.kept (t.afterCall call) = cell.kept t

/-- Where the values of a variable are kept. -/
def ofVariable (name : String) : Cell ProcessValue where
  kept t := t.value? name
  observed? := Call.valueOf? name

/-- Where the path speed is kept. -/
def ofPathSpeed : Cell Float where
  kept t := t.pathSpeed
  observed? := Call.speed?

end Cell

/-! ## One call -/

theorem observeVariable_known {name : String} {value : ProcessValue}
    (h : (t.value? name).any (· == value) = true) :
    t.answer (.observeVariable name value) = .news false ∧
      t.afterCall (.observeVariable name value) = t := by
  have hnone := observeVariable?_eq_none.mpr h
  rw [answer, afterCall, hnone]
  exact ⟨rfl, rfl⟩

theorem observeVariable_fresh {name : String} {value : ProcessValue}
    (h : ¬ (t.value? name).any (· == value) = true) :
    t.answer (.observeVariable name value) = .news true ∧
      t.afterCall (.observeVariable name value) =
        { t with values := t.values.insert name value } := by
  have hsome := observeVariable?_eq_some.mpr ⟨h, rfl⟩
  rw [answer, afterCall, hsome]
  exact ⟨rfl, rfl⟩

theorem observePathSpeed_known {speed : Float} (h : t.pathSpeed.any (· == speed) = true) :
    t.answer (.observePathSpeed speed) = .news false ∧
      t.afterCall (.observePathSpeed speed) = t := by
  have hnone := observePathSpeed?_eq_none.mpr h
  rw [answer, afterCall, hnone]
  exact ⟨rfl, rfl⟩

theorem observePathSpeed_fresh {speed : Float} (h : ¬ t.pathSpeed.any (· == speed) = true) :
    t.answer (.observePathSpeed speed) = .news true ∧
      t.afterCall (.observePathSpeed speed) = { t with pathSpeed := some speed } := by
  have hsome := observePathSpeed?_eq_some.mpr ⟨h, rfl⟩
  rw [answer, afterCall, hsome]
  exact ⟨rfl, rfl⟩

/-- A call leaves all parts alone but its own. -/
theorem AgreeOn.of_part_ne (h : call.part ≠ part) : AgreeOn part (t.afterCall call) t := by
  cases call with
  | observeVariable name value =>
      by_cases hknown : (t.value? name).any (· == value) = true
      · exact .of_eq (observeVariable_known hknown).2
      · rw [(observeVariable_fresh hknown).2]
        cases part with
        | value key =>
            have hne : key ≠ name := fun heq => h (congrArg Part.value heq.symm)
            exact (NameMap.find?_insert t.values name key value).trans (if_neg hne)
        | pathSpeed | moves => rfl
  | observePathSpeed speed =>
      by_cases hknown : t.pathSpeed.any (· == speed) = true
      · exact .of_eq (observePathSpeed_known hknown).2
      · rw [(observePathSpeed_fresh hknown).2]
        cases part with
        | value | moves => rfl
        | pathSpeed => exact absurd rfl h
  | enter i =>
      cases hnext : t.phase.next? i with
      | none => exact .of_eq (enter_of_refused hnext).2
      | some phase =>
          rw [(enter_of_next hnext).2]
          cases part with
          | value | pathSpeed => rfl
          | moves => exact absurd rfl h

theorem observed?_ofVariable_iff {name : String} {value : ProcessValue} :
    (Cell.ofVariable name).observed? call = some value ↔ call = .observeVariable name value := by
  cases call with
  | observeVariable key seen => simp [Cell.ofVariable, Call.valueOf?]
  | observePathSpeed | enter => exact iff_of_false nofun nofun

theorem observed?_ofPathSpeed_iff {speed : Float} :
    Cell.ofPathSpeed.observed? call = some speed ↔ call = .observePathSpeed speed := by
  cases call with
  | observePathSpeed seen => simp [Cell.ofPathSpeed, Call.speed?]
  | observeVariable | enter => exact iff_of_false nofun nofun

theorem debounces_ofVariable (name : String) : (Cell.ofVariable name).Debounces where
  known := by
    intro t call value hobserved hknown
    obtain rfl := observed?_ofVariable_iff.mp hobserved
    exact observeVariable_known hknown
  fresh := by
    intro t call value hobserved hfresh
    obtain rfl := observed?_ofVariable_iff.mp hobserved
    obtain ⟨hanswer, hafter⟩ := observeVariable_fresh hfresh
    rw [hafter]
    exact ⟨hanswer, (NameMap.find?_insert t.values name name value).trans (if_pos rfl)⟩
  other := by
    intro t call hobserved
    suffices hne : call.part ≠ .value name from AgreeOn.of_part_ne hne
    cases call with
    | observeVariable key seen =>
        intro heq
        obtain rfl := Part.value.inj heq
        rw [observed?_ofVariable_iff.mpr rfl] at hobserved
        cases hobserved
    | observePathSpeed | enter => exact nofun

theorem debounces_ofPathSpeed : Cell.ofPathSpeed.Debounces where
  known := by
    intro t call speed hobserved hknown
    obtain rfl := observed?_ofPathSpeed_iff.mp hobserved
    exact observePathSpeed_known hknown
  fresh := by
    intro t call speed hobserved hfresh
    obtain rfl := observed?_ofPathSpeed_iff.mp hobserved
    obtain ⟨hanswer, hafter⟩ := observePathSpeed_fresh hfresh
    rw [hafter]
    exact ⟨hanswer, rfl⟩
  other := by
    intro t call hobserved
    suffices hne : call.part ≠ .pathSpeed from AgreeOn.of_part_ne hne
    cases call with
    | observePathSpeed speed => cases hobserved
    | observeVariable | enter => exact nofun

/-- The answer to an observation, and what is kept after it, follow from what was kept. -/
theorem Cell.Debounces.own {α : Type} [BEq α] {cell : Cell α} {value : α} (h : cell.Debounces)
    (hobserved : cell.observed? call = some value) (hkept : cell.kept t = cell.kept u) :
    t.answer call = u.answer call ∧
      cell.kept (t.afterCall call) = cell.kept (u.afterCall call) := by
  by_cases hknown : (cell.kept t).any (· == value) = true
  · obtain ⟨hanswer, hafter⟩ := h.known hobserved hknown
    obtain ⟨hanswer', hafter'⟩ := h.known hobserved (hkept ▸ hknown)
    rw [hanswer, hanswer', hafter, hafter']
    exact ⟨rfl, hkept⟩
  · obtain ⟨hanswer, hafter⟩ := h.fresh hobserved hknown
    obtain ⟨hanswer', hafter'⟩ := h.fresh hobserved (hkept ▸ hknown)
    exact ⟨hanswer.trans hanswer'.symm, hafter.trans hafter'.symm⟩

/-- The answer to a call and what the call does to its part follow from that part. -/
theorem AgreeOn.own (h : AgreeOn call.part t u) :
    t.answer call = u.answer call ∧ AgreeOn call.part (t.afterCall call) (u.afterCall call) := by
  cases call with
  | observeVariable name value =>
      exact (debounces_ofVariable name).own (observed?_ofVariable_iff.mpr rfl) h
  | observePathSpeed speed => exact debounces_ofPathSpeed.own rfl h
  | enter i =>
      have hphase : t.phase = u.phase := h
      refine ⟨?_, (enter_eq_of_phase_eq h i).2⟩
      rw [answer, answer, enter, enter, hphase]
      cases u.phase.next? i <;> rfl

/-! ## All calls -/

/-- What calls do to a part follows from those on that part. -/
theorem AgreeOn.afterCalls_filter (h : AgreeOn part t u) (calls : List Call) :
    AgreeOn part (t.afterCalls calls) (u.afterCalls (calls.filter (·.part = part))) := by
  induction calls generalizing t u with
  | nil => exact h
  | cons call rest ih =>
      by_cases hpart : call.part = part
      · subst hpart
        rw [List.filter_cons_of_pos (by simp)]
        exact ih h.own.2
      · rw [List.filter_cons_of_neg (by simpa using hpart)]
        exact ih ((AgreeOn.of_part_ne hpart).trans h)

/-- Parts that begin alike stay alike when the calls on them are the same. -/
theorem AgreeOn.afterCalls {calls calls' : List Call} (h : AgreeOn part t u)
    (hcalls : calls.filter (·.part = part) = calls'.filter (·.part = part)) :
    AgreeOn part (t.afterCalls calls) (u.afterCalls calls') := by
  have hfilter := (AgreeOn.refl part u).afterCalls_filter calls'
  rw [← hcalls] at hfilter
  exact (h.afterCalls_filter calls).trans hfilter.symm

/-- New trackers differ in the path speed at most. -/
theorem agreeOn_opening {pathSpeed pathSpeed' : Option Float}
    (h : part = .pathSpeed → pathSpeed = pathSpeed') :
    AgreeOn part (opening pathSpeed) (opening pathSpeed') := by
  cases part with
  | value name => cases pathSpeed <;> cases pathSpeed' <;> rfl
  | pathSpeed => exact .of_eq (congrArg opening (h rfl))
  | moves => exact (phase_opening pathSpeed).trans (phase_opening pathSpeed').symm

theorem value?_opening (pathSpeed : Option Float) (name : String) :
    (opening pathSpeed).value? name = none := by
  cases pathSpeed <;> rfl

theorem pathSpeed_opening (pathSpeed : Option Float) :
    (opening pathSpeed).pathSpeed = pathSpeed := by
  cases pathSpeed <;> rfl

namespace Cell.Debounces

variable {α : Type} [BEq α] {cell : Cell α}

/-- What is kept is the latest news, and each news differs from what was kept before. -/
theorem kept_afterCalls (h : cell.Debounces) (t : Tracker) (calls : List Call) :
    cell.kept (t.afterCalls calls) = ((cell.kept t).toList ++ cell.recorded t calls).getLast? ∧
      ((cell.kept t).toList ++ cell.recorded t calls).IsChain fun a b => ¬ (a == b) = true := by
  induction calls generalizing t with
  | nil =>
      rw [recorded, List.append_nil]
      cases hkept : cell.kept t with
      | none => exact ⟨hkept, .nil⟩
      | some value => exact ⟨hkept, .singleton value⟩
  | cons call rest ih =>
      obtain ⟨hlast, hchain⟩ := ih (t.afterCall call)
      rw [recorded]
      change cell.kept ((t.afterCall call).afterCalls rest) = _ ∧ _
      rw [hlast]
      cases hobserved : cell.observed? call with
      | none =>
          rw [h.other hobserved] at hchain ⊢
          exact ⟨rfl, hchain⟩
      | some value =>
          by_cases hknown : (cell.kept t).any (· == value) = true
          · obtain ⟨hanswer, hafter⟩ := h.known hobserved hknown
            rw [hafter] at hchain ⊢
            rw [hanswer]
            exact ⟨rfl, hchain⟩
          · obtain ⟨hanswer, hafter⟩ := h.fresh hobserved hknown
            rw [hafter] at hchain ⊢
            rw [hanswer]
            cases hkept : cell.kept t with
            | none => exact ⟨rfl, hchain⟩
            | some old =>
                rw [hkept] at hknown
                refine ⟨?_, .cons_cons hknown hchain⟩
                exact (List.getLast?_cons_cons ..).symm

/-- An observation is news unless it equals what is kept, which then stays as it is. -/
theorem answer_cases (h : cell.Debounces) {call : Call} {value : α}
    (hobserved : cell.observed? call = some value) (t : Tracker) :
    (t.answer call = .news false ↔ ∃ old, cell.kept t = some old ∧ (old == value) = true) ∧
      (t.answer call = .news false → t.afterCall call = t) ∧
      (t.answer call = .news true → cell.kept (t.afterCall call) = some value) := by
  rw [← Option.any_eq_true]
  by_cases hknown : (cell.kept t).any (· == value) = true
  · obtain ⟨hanswer, hafter⟩ := h.known hobserved hknown
    refine ⟨iff_of_true hanswer hknown, fun _ => hafter, ?_⟩
    rw [hanswer]
    exact nofun
  · obtain ⟨hanswer, hafter⟩ := h.fresh hobserved hknown
    rw [hanswer]
    exact ⟨iff_of_false nofun hknown, nofun, fun _ => hafter⟩

end Cell.Debounces

/-- The parts of a tracker are independent: with the same calls on a part so far, and the
same path speed at first where that is the part, a tracker keeps the same in it and
answers the next call on it alike. An observation is no news exactly if it equals the
value that is kept, which then stays as it is; otherwise it takes that place. So the
latest news is kept, no news equals the one before, and a refused move changes nothing. -/
theorem parts_independent (pathSpeed pathSpeed' : Option Float) (calls calls' : List Call) :
    let t := (opening pathSpeed).afterCalls calls
    let u := (opening pathSpeed').afterCalls calls'
    (∀ part, calls.filter (·.part = part) = calls'.filter (·.part = part) →
      (part = .pathSpeed → pathSpeed = pathSpeed') →
        AgreeOn part t u ∧ ∀ call : Call, call.part = part → t.answer call = u.answer call) ∧
      (∀ name value, let call := Call.observeVariable name value;
        (t.answer call = .news false ↔ ∃ old, t.value? name = some old ∧ (old == value) = true) ∧
          (t.answer call = .news false → t.afterCall call = t) ∧
          (t.answer call = .news true → (t.afterCall call).value? name = some value)) ∧
      (∀ name, let news := (Cell.ofVariable name).recorded (opening pathSpeed) calls;
        t.value? name = news.getLast? ∧ news.IsChain fun a b => ¬ (a == b) = true) ∧
      (∀ speed, let call := Call.observePathSpeed speed;
        (t.answer call = .news false ↔ ∃ old, t.pathSpeed = some old ∧ (old == speed) = true) ∧
          (t.answer call = .news false → t.afterCall call = t) ∧
          (t.answer call = .news true → (t.afterCall call).pathSpeed = some speed)) ∧
      (let news := pathSpeed.toList ++ Cell.ofPathSpeed.recorded (opening pathSpeed) calls;
        t.pathSpeed = news.getLast? ∧ news.IsChain fun a b => ¬ (a == b) = true) ∧
      ∀ i e, t.answer (.enter i) = .moved (.error e) → t.afterCall (.enter i) = t := by
  intro t u
  refine ⟨fun part hcalls hspeed => ?_, fun name value => ?_, fun name => ?_, fun speed => ?_, ?_,
    fun i e h => ?_⟩
  · have hagree : AgreeOn part t u := (agreeOn_opening hspeed).afterCalls hcalls
    refine ⟨hagree, ?_⟩
    rintro call rfl
    exact hagree.own.1
  · exact (debounces_ofVariable name).answer_cases (observed?_ofVariable_iff.mpr rfl) t
  · have hkept := (debounces_ofVariable name).kept_afterCalls (opening pathSpeed) calls
    have hnone : (Cell.ofVariable name).kept (opening pathSpeed) = none :=
      value?_opening pathSpeed name
    rw [hnone] at hkept
    exact hkept
  · exact debounces_ofPathSpeed.answer_cases rfl t
  · have hkept := debounces_ofPathSpeed.kept_afterCalls (opening pathSpeed) calls
    have hspeed : Cell.ofPathSpeed.kept (opening pathSpeed) = pathSpeed :=
      pathSpeed_opening pathSpeed
    rw [hspeed] at hkept
    exact hkept
  · cases hnext : t.phase.next? i with
    | none => exact (enter_of_refused hnext).2
    | some phase =>
        rw [answer, enter_eq_ok_iff.mpr ⟨phase, hnext, rfl⟩] at h
        cases h

/-- A whole decimal after the same integer, and a value that is no number twice, with
moves and other observations around them. -/
def shuffled : List Call :=
  [.enter .continuous, .observeVariable "A" (.integer 100), .observePathSpeed 0.05,
    .observeVariable "B" (.decimal (0 / 0)), .enter .pointToPoint,
    .observeVariable "A" (.decimal 100), .observeVariable "B" (.decimal (0 / 0))]

theorem parts_independent_shuffled :
    let t := (opening (some 0.05)).afterCalls shuffled
    let alone := (opening none).afterCalls
      [.observeVariable "A" (.integer 100), .observeVariable "A" (.decimal 100)]
    (AgreeOn (.value "A") t alone ∧
        t.answer (.observeVariable "A" (.integer 101)) =
          alone.answer (.observeVariable "A" (.integer 101))) ∧
      (t.value? "A" = some (.integer 100) ∧
        t.afterCall (.observeVariable "A" (.decimal 100)) = t) ∧
      (t.answer (.observeVariable "B" (.decimal (0 / 0))) = .news true ∧
        (t.afterCall (.observeVariable "B" (.decimal (0 / 0)))).value? "B" =
          some (.decimal (0 / 0))) ∧
      (t.afterCall (.observePathSpeed 0.05) = t ∧
        (t.afterCall (.observePathSpeed 0.1)).pathSpeed = some 0.1) ∧
      t.answer (.enter .continuous) = .moved (.ok ()) ∧
      (opening none).afterCall (.enter .continuous) = opening none := by
  intro t alone
  have hindependent := parts_independent (some 0.05) none shuffled
    [.observeVariable "A" (.integer 100), .observeVariable "A" (.decimal 100)]
  obtain ⟨hpart, hvalue, -, hspeed, -, -⟩ := hindependent
  obtain ⟨hagree, hanswer⟩ := hpart (.value "A") rfl nofun
  obtain ⟨-, -, -, -, -, hrefused⟩ := parts_independent none none [] []
  obtain ⟨hequal, hstays, -⟩ := hvalue "A" (.decimal 100)
  obtain ⟨-, hstill, -⟩ := hspeed 0.05
  have hkept : t.value? "A" = some (.integer 100) := by decide +kernel
  have hsame : (ProcessValue.integer 100 == .decimal 100) = true := by decide +kernel
  have hnews : t.answer (.observeVariable "B" (.decimal (0 / 0))) = .news true := by rfl
  refine ⟨⟨hagree, hanswer _ rfl⟩, ⟨hkept, hstays (hequal.mpr ⟨_, hkept, hsame⟩)⟩,
    ⟨hnews, (hvalue "B" (.decimal (0 / 0))).2.2 hnews⟩,
    ⟨hstill rfl, (hspeed 0.1).2.2 rfl⟩, rfl, hrefused .continuous _ rfl⟩

end Tracker

end RobotPath
