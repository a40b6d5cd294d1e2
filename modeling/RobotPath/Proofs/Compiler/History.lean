import RobotPath.Proofs.Compiler.Run

/-!
# What was written decides what is written

A tracker is a digest of the instructions so far: the latest assignment of every
variable and the latest path speed. With that, the instructions of a run can be
told from its requests and from the instructions before each of them alone.
-/

namespace RobotPath

/-- Writes for item after item, each in view of all that was written before it. -/
def following {α : Type} (write : List Instruction → α → List Instruction)
    (before : List Instruction) : List α → List Instruction
  | [] => []
  | item :: rest =>
      write before item ++ following write (before ++ write before item) rest

section following

variable {α β : Type} {write : List Instruction → α → List Instruction}
  {before : List Instruction}

theorem following_append (items more : List α) :
    following write before (items ++ more) =
      following write before items ++
        following write (before ++ following write before items) more := by
  induction items generalizing before with
  | nil => simp [following]
  | cons item rest ih => simp [following, ih]

theorem following_filterMap (f : β → Option α) (items : List β) :
    following write before (items.filterMap f) =
      following (fun before item => ((f item).map (write before)).getD []) before items := by
  induction items generalizing before with
  | nil => rfl
  | cons item rest ih =>
      rw [List.filterMap_cons, following]
      cases f item with
      | none => simpa using ih
      | some found => simp [following, ih]

theorem following_congr {write' : List Instruction → α → List Instruction} {items : List α}
    (h : ∀ item ∈ items, ∀ before, write before item = write' before item) :
    following write before items = following write' before items := by
  induction items generalizing before with
  | nil => rfl
  | cons item rest ih =>
      rw [following, following, h item List.mem_cons_self,
        ih fun later hlater => h later (List.mem_cons_of_mem item hlater)]

end following

namespace Instruction

/-- The value that an instruction assigns to a variable, if it does. -/
def assigned? (name : String) : Instruction → Option ProcessValue
  | .assign key value => if key = name then some value else none
  | _ => none

/-- The path speed that an instruction sets, if it does. -/
def pathSpeed? : Instruction → Option Float
  | .pathSpeed speed => some speed
  | _ => none

end Instruction

/-- The value of the latest assignment of a variable. -/
def lastAssigned? (written : List Instruction) (name : String) : Option ProcessValue :=
  written.reverse.findSome? (Instruction.assigned? name)

/-- The latest path speed, which is the declared one until another is set. -/
def lastSpeed (declared : Float) (written : List Instruction) : Float :=
  (written.reverse.findSome? Instruction.pathSpeed?).getD declared

section latest

variable {before : List Instruction} {settleTime : Option Float}

theorem lastAssigned?_append_eq_or (after : List Instruction) (name : String) :
    lastAssigned? (before ++ after) name =
      (lastAssigned? after name).or (lastAssigned? before name) := by
  rw [lastAssigned?, List.reverse_append, List.findSome?_append]
  rfl

theorem lastSpeed_append_of_none (declared : Float) {after : List Instruction}
    (h : ∀ i ∈ after, i.pathSpeed? = none) :
    lastSpeed declared (before ++ after) = lastSpeed declared before := by
  have hnone : after.reverse.findSome? Instruction.pathSpeed? = none :=
    List.findSome?_eq_none_iff.mpr fun i hi => h i (List.mem_reverse.mp hi)
  rw [lastSpeed, List.reverse_append, List.findSome?_append, hnone, Option.none_or]
  rfl

theorem lastAssigned?_append_of_none {after : List Instruction} {name : String}
    (h : ∀ i ∈ after, i.assigned? name = none) :
    lastAssigned? (before ++ after) name = lastAssigned? before name := by
  have hnone : lastAssigned? after name = none :=
    List.findSome?_eq_none_iff.mpr fun i hi => h i (List.mem_reverse.mp hi)
  rw [lastAssigned?_append_eq_or, hnone, Option.none_or]

theorem lastAssigned?_append_withPause (key name : String) (value : ProcessValue) :
    lastAssigned? (before ++ Request.withPause settleTime (.assign name value)) key =
      if key = name then some value else lastAssigned? before key := by
  have hpause : lastAssigned? (Request.withPause settleTime (.assign name value)) key =
      if name = key then some value else none := by
    cases settleTime <;> by_cases h : name = key <;>
      simp [lastAssigned?, Request.withPause, List.findSome?_cons, Instruction.assigned?, h]
  rw [lastAssigned?_append_eq_or, hpause]
  by_cases h : key = name
  · rw [if_pos h, if_pos h.symm, Option.some_or]
  · rw [if_neg h, if_neg (Ne.symm h), Option.none_or]

end latest

namespace Request

/-- What a request has to write, in view of what was written before it. -/
def written (settleTime : Option Float) (declared : Float) (before : List Instruction) :
    Request → List Instruction
  | travel target => [.pointToPoint target]
  | follow target => [.continuous target]
  | output number on => [.digitalOutput number on]
  | assign _ name value =>
      if (lastAssigned? before name).any (· == value) then []
      else withPause settleTime (.assign name value)
  | pathSpeed _ value =>
      match value.number? with
      | none => []
      | some speed => if lastSpeed declared before == speed then [] else [.pathSpeed speed]

end Request

/-- A tracker that holds the latest of everything that was written. -/
structure Tracks (declared : Float) (t : Tracker) (written : List Instruction) : Prop where
  value? : ∀ name, t.value? name = lastAssigned? written name
  pathSpeed : t.pathSpeed = some (lastSpeed declared written)

namespace Tracks

variable {declared : Float} {settleTime : Option Float} {t next : Tracker} {r : Request}
  {emission : Emission} {before : List Instruction}

theorem starting (declared : Float) : Tracks declared (Tracker.starting declared) [] :=
  ⟨fun _ => rfl, rfl⟩

/-- Writing what is neither an assignment nor a path speed changes nothing of it. -/
theorem append_of_other (h : Tracks declared t before) {i : Instruction}
    (hassigned : ∀ name, i.assigned? name = none) (hspeed : i.pathSpeed? = none)
    {phase : Phase} : Tracks declared { t with phase } (before ++ [i]) where
  value? name := by
    rw [lastAssigned?_append_of_none (by simpa using hassigned name)]
    exact h.value? name
  pathSpeed := by
    rw [lastSpeed_append_of_none declared (by simpa using hspeed)]
    exact h.pathSpeed

theorem append_withPause (h : Tracks declared t before) (name : String) (value : ProcessValue) :
    Tracks declared { t with values := t.values.insert name value }
      (before ++ Request.withPause settleTime (.assign name value)) where
  value? key := by
    rw [lastAssigned?_append_withPause, ← h.value?]
    exact NameMap.find?_insert t.values name key value
  pathSpeed := by
    have hother : ∀ i ∈ Request.withPause settleTime (.assign name value), i.pathSpeed? = none := by
      cases settleTime <;> simp [Request.withPause, Instruction.pathSpeed?]
    rw [lastSpeed_append_of_none declared hother]
    exact h.pathSpeed

theorem append_pathSpeed (h : Tracks declared t before) (speed : Float) :
    Tracks declared { t with pathSpeed := some speed } (before ++ [.pathSpeed speed]) where
  value? name := by
    rw [lastAssigned?_append_of_none (by simp [Instruction.assigned?])]
    exact h.value? name
  pathSpeed := by simp [lastSpeed, List.findSome?_cons, Instruction.pathSpeed?]

/-- One request writes what the history asks for, and the tracker keeps up. -/
theorem step (h : Tracks declared t before) (hp : r.Performed settleTime t next emission) :
    emission.instructions = r.written settleTime declared before ∧
      Tracks declared next (before ++ emission.instructions) := by
  cases hp with
  | travel henter | follow henter =>
      obtain ⟨phase, -, rfl⟩ := Tracker.enter_eq_ok_iff.mp henter
      exact ⟨rfl, h.append_of_other (fun _ => rfl) rfl⟩
  | output => exact ⟨rfl, h.append_of_other (fun _ => rfl) rfl⟩
  | @knownValue index name value text hliteral hobserve =>
      obtain hknown := Tracker.observeVariable?_eq_none.mp hobserve
      rw [h.value?] at hknown
      -- Nothing is written, so the history stays what it was.
      refine ⟨by rw [Request.written, if_pos hknown]; rfl, ?_⟩
      rw [Emission.nothing, List.append_nil]
      exact h
  | @newValue index name value text next hliteral hobserve =>
      obtain ⟨hnews, rfl⟩ := Tracker.observeVariable?_eq_some.mp hobserve
      rw [h.value?] at hnews
      exact ⟨by rw [Request.written, if_neg hnews], h.append_withPause name value⟩
  | @knownSpeed index value speed hspeed hobserve =>
      obtain ⟨hnumber, -⟩ := Request.number?_of_speed hspeed
      have hknown := Tracker.observePathSpeed?_eq_none.mp hobserve
      rw [h.pathSpeed, Option.any_some] at hknown
      refine ⟨by simp only [Request.written, hnumber]; rw [if_pos hknown]; rfl, ?_⟩
      rw [Emission.nothing, List.append_nil]
      exact h
  | @newSpeed index value speed next hspeed hobserve =>
      obtain ⟨hnumber, -⟩ := Request.number?_of_speed hspeed
      obtain ⟨hnews, rfl⟩ := Tracker.observePathSpeed?_eq_some.mp hobserve
      rw [h.pathSpeed, Option.any_some] at hnews
      exact ⟨by simp only [Request.written, hnumber]; rw [if_neg hnews], h.append_pathSpeed speed⟩

end Tracks

/-- The instructions of a run that reaches its end, told from what was written
before each request alone. -/
theorem Run.result_eq_following {declared : Float} {settleTime : Option Float} {t : Tracker}
    {before instructions : List Instruction} {rs : List Request} (h : Tracks declared t before)
    (hrun : (ofRequests settleTime t rs).result = .ok instructions) :
    instructions = following (Request.written settleTime declared) before rs := by
  induction rs generalizing t before instructions with
  | nil =>
      cases hrun
      rfl
  | cons r rest ih =>
      obtain ⟨next, emission, later, hp, hrest, rfl⟩ := result_cons_eq_ok hrun
      obtain ⟨hwritten, htracks⟩ := h.step hp
      rw [ih htracks hrest, hwritten]
      rfl

theorem mem_of_lastAssigned? {written : List Instruction} {name : String} {value : ProcessValue}
    (h : lastAssigned? written name = some value) : .assign name value ∈ written := by
  obtain ⟨i, hi, hassigned⟩ := List.exists_of_findSome?_eq_some h
  unfold Instruction.assigned? at hassigned
  split at hassigned
  next =>
    split at hassigned
    next heq =>
      cases hassigned
      exact heq ▸ List.mem_reverse.mp hi
    next => cases hassigned
  next => cases hassigned

/-- A variable that a run is asked to assign has been assigned at its end, though maybe
earlier and with an equal value. -/
theorem Run.exists_assign {declared : Float} {settleTime : Option Float} {t : Tracker}
    {before instructions : List Instruction} {rs : List Request} (h : Tracks declared t before)
    (hrun : (ofRequests settleTime t rs).result = .ok instructions) {index : Nat} {name : String}
    {value : ProcessValue} (hmem : .assign index name value ∈ rs) :
    ∃ latest, .assign name latest ∈ before ++ instructions := by
  induction rs generalizing t before instructions with
  | nil => cases hmem
  | cons r rest ih =>
      obtain ⟨next, emission, later, hp, hrest, rfl⟩ := result_cons_eq_ok hrun
      obtain ⟨hwritten, htracks⟩ := h.step hp
      cases List.mem_cons.mp hmem with
      | inl heq =>
          subst heq
          rw [hwritten, Request.written]
          split
          next hknown =>
            obtain ⟨latest, hlatest, -⟩ := (Option.any_eq_true _ _).mp hknown
            exact ⟨latest, List.mem_append_left _ (mem_of_lastAssigned? hlatest)⟩
          next => exact ⟨value, by simp [Request.withPause]⟩
      | inr hlater =>
          rw [← List.append_assoc]
          exact ih htracks hrest hlater

end RobotPath
