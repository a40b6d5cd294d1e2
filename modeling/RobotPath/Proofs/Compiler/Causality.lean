import RobotPath.Proofs.Compiler.Reference
import RobotPath.Proofs.Compiler.Relevance

/-!
# What is written before a waypoint is reached

Requests are carried out in the order of the waypoints, and what one of them writes
depends only on what was written before it. So the instructions up to the move to a
waypoint do not change with anything that comes later, and a path that is cut short
gives the beginning of the same program.
-/

namespace RobotPath

/-- Whether an instruction moves the robot. -/
def Instruction.isMove (i : Instruction) : Bool := i.interpolation?.isSome

namespace Request

/-- The move that a request asks for, if it asks for one. -/
def move? : Request → Option Instruction
  | .travel target => some (.pointToPoint target)
  | .follow target => some (.continuous target)
  | .output .. | .assign .. | .pathSpeed .. => none

variable {settleTime : Option Float} {declared : Float} {before : List Instruction}

theorem written_of_move {r : Request} {i : Instruction} (h : r.move? = some i) :
    r.written settleTime declared before = [i] ∧ i.isMove = true := by
  cases r with
  | travel | follow =>
      cases h
      exact ⟨rfl, rfl⟩
  | output | assign | pathSpeed => cases h

theorem filter_isMove_written (r : Request) :
    (r.written settleTime declared before).filter Instruction.isMove = r.move?.toList := by
  cases r with
  | travel | follow | output => rfl
  | assign index name value =>
      rw [written]
      split
      · rfl
      · cases settleTime <;> rfl
  | pathSpeed index value =>
      rw [written]
      split
      · rfl
      · split <;> rfl

end Request

/-- The path up to its first waypoints, with all of its profiles. -/
def Toolpath.truncate (path : Toolpath) (k : Nat) : Toolpath :=
  { path with waypoints := path.waypoints.take k }

namespace Compiler

variable (c : Compiler) (path : Toolpath)

/-- The move to a waypoint: the first one is travelled to, and the others are followed. -/
def arrival : Waypoint × Nat → Instruction
  | (w, 0) => .pointToPoint (.cartesian (c.frame w))
  | (w, _ + 1) => .continuous (c.frame w)

/-- Instructions that end with the move to the last of some waypoints. The moves before
it go home and to each of the others in turn. -/
structure Reaches (waypoints : List Waypoint) (instructions : List Instruction) : Prop where
  moves : instructions.filter Instruction.isMove =
    .pointToPoint c.config.home :: waypoints.zipIdx.map c.arrival
  last : instructions.getLast?.any Instruction.isMove = true

/-- The instructions after the move to the last waypoint. -/
def closing : List Instruction :=
  Reference.output c false ++ [.pointToPoint c.config.home]

/-- The requests up to the last of some frames. -/
def outward (frames : List Frame) : List Request :=
  [.travel c.config.home] ++ c.processOutput true ++
    frames.zipIdx.flatMap fun (frame, index) => c.approach path frame index

theorem requests_eq_outward (frames : List Frame) :
    c.requests path frames =
      c.outward path frames ++ (c.processOutput false ++ [.travel c.config.home]) := by
  simp only [requests, outward, List.append_assoc]

theorem outward_append (front back : List Frame) :
    c.outward path (front ++ back) = c.outward path front ++
      (back.zipIdx front.length).flatMap fun (frame, index) => c.approach path frame index := by
  simp only [outward, List.zipIdx_append, List.flatMap_append, List.append_assoc, Nat.zero_add]

/-- A waypoint asks for its settings, which are no moves, and then for its move. -/
theorem exists_approach_eq (w : Waypoint) (index : Nat) :
    ∃ still r, c.approach path (c.frame w) index = still ++ [r] ∧
      (∀ s ∈ still, s.move? = none) ∧ r.move? = some (c.arrival (w, index)) := by
  cases index with
  | zero => exact ⟨[], _, rfl, by simp, rfl⟩
  | succ index =>
      refine ⟨c.settings path (index + 1), _, rfl, ?_, rfl⟩
      intro s hs
      have hstill := c.still_of_mem_settings path hs
      cases s with
      | travel | follow => cases hstill
      | output | assign | pathSpeed => rfl

/-! ## Moves and prefixes -/

theorem writes_singleton (before : List Instruction) (r : Request) :
    c.writes before [r] = r.written c.config.settleTime c.config.pathSpeed before :=
  List.append_nil _

theorem filter_isMove_writes (before : List Instruction) (rs : List Request) :
    (c.writes before rs).filter Instruction.isMove = rs.filterMap Request.move? := by
  induction rs generalizing before with
  | nil => rfl
  | cons r rest ih =>
      have hcons : c.writes before (r :: rest) = c.writes before [r] ++
          c.writes (before ++ c.writes before [r]) rest := c.writes_append before [r] rest
      rw [hcons, List.filter_append, ih, writes_singleton, Request.filter_isMove_written,
        List.filterMap_cons]
      cases r.move? <;> rfl

theorem filterMap_move?_outward (waypoints : List Waypoint) :
    (c.outward path (waypoints.map c.frame)).filterMap Request.move? =
      .pointToPoint c.config.home :: waypoints.zipIdx.map c.arrival := by
  have houtput : (c.processOutput true).filterMap Request.move? = [] := by
    unfold processOutput
    cases c.config.processOutput <;> rfl
  have happroach (w : Waypoint) (index : Nat) :
      (c.approach path (c.frame w) index).filterMap Request.move? = [c.arrival (w, index)] := by
    obtain ⟨still, r, heq, hstill, hmove⟩ := c.exists_approach_eq path w index
    rw [heq, List.filterMap_append, List.filterMap_eq_nil_iff.mpr hstill]
    simp [hmove]
  have hpath (start : Nat) : (((waypoints.map c.frame).zipIdx start).flatMap
      fun (frame, index) => c.approach path frame index).filterMap Request.move? =
        (waypoints.zipIdx start).map c.arrival := by
    induction waypoints generalizing start with
    | nil => rfl
    | cons w rest ih =>
        simp only [List.map_cons, List.zipIdx_cons, List.flatMap_cons, List.filterMap_append,
          happroach, ih, List.singleton_append]
  rw [outward, List.filterMap_append, List.filterMap_append, houtput, hpath]
  rfl

/-- What is written on the way to some waypoints ends with the move to the last. -/
theorem reaches_writes_outward {waypoints : List Waypoint} (h : waypoints ≠ []) :
    c.Reaches waypoints (c.writes [] (c.outward path (waypoints.map c.frame))) where
  moves := by rw [filter_isMove_writes, filterMap_move?_outward]
  last := by
    obtain rfl | ⟨front, w, rfl⟩ := waypoints.eq_nil_or_concat'
    · exact absurd rfl h
    · obtain ⟨still, r, heq, -, hmove⟩ := c.exists_approach_eq path w front.length
      have hlast : c.outward path ((front ++ [w]).map c.frame) =
          c.outward path (front.map c.frame) ++ still ++ [r] := by
        rw [List.map_append, outward_append, List.append_assoc, ← heq]
        simp
      obtain ⟨hwritten, hisMove⟩ := @Request.written_of_move c.config.settleTime
        c.config.pathSpeed (c.writes [] (c.outward path (front.map c.frame) ++ still)) r _ hmove
      rw [hlast, writes_append, List.nil_append, writes_singleton, hwritten, List.getLast?_concat]
      exact hisMove

theorem reaches_writes_take {k : Nat} (hpos : 1 ≤ k) (hlength : k ≤ path.waypoints.length) :
    c.Reaches (path.waypoints.take k)
      (c.writes [] (c.outward path ((path.waypoints.take k).map c.frame))) := by
  apply c.reaches_writes_outward
  apply List.ne_nil_of_length_pos
  rw [List.length_take]
  omega

theorem writes_isPrefix {rs more : List Request} (h : rs <+: more) (before : List Instruction) :
    c.writes before rs <+: c.writes before more := by
  obtain ⟨rest, rfl⟩ := h
  rw [writes_append]
  exact List.prefix_append _ _

theorem outward_take_isPrefix (frames : List Frame) (k : Nat) :
    c.outward path (frames.take k) <+: c.requests path frames := by
  have hfront : c.outward path (frames.take k) <+: c.outward path frames := by
    conv => rhs; rw [← List.take_append_drop k frames, outward_append]
    exact List.prefix_append _ _
  rw [requests_eq_outward]
  exact hfront.trans (List.prefix_append _ _)

theorem instructions_eq_writes {p : Program} (h : (c.compile path).result = .ok p) :
    p.instructions = c.writes [] (c.requests path (path.waypoints.map c.frame)) := by
  obtain ⟨-, instructions, hrun, rfl⟩ := c.compile_eq_ok path h
  exact Run.result_eq_following (Tracks.starting c.config.pathSpeed) hrun

/-- A program begins with what is written on the way to its first waypoints. -/
theorem writes_outward_isPrefix {p : Program} (h : (c.compile path).result = .ok p) (k : Nat) :
    c.writes [] (c.outward path ((path.waypoints.take k).map c.frame)) <+: p.instructions := by
  rw [c.instructions_eq_writes path h, List.map_take]
  exact c.writes_isPrefix (c.outward_take_isPrefix path _ k) []

theorem instructions_eq_append_closing {p : Program} (h : (c.compile path).result = .ok p) :
    p.instructions =
      c.writes [] (c.outward path (path.waypoints.map c.frame)) ++ c.closing := by
  have hhome (before : List Instruction) :
      c.writes before [.travel c.config.home] = [.pointToPoint c.config.home] := rfl
  rw [c.instructions_eq_writes path h, requests_eq_outward, writes_append, writes_append,
    writes_output, hhome]
  rfl

/-! ## Two paths, and a path cut short -/

/-- The part of two programs up to a waypoint is one, when nothing before it differs. -/
theorem exists_common_beginning {a b : Toolpath} {p q : Program} {k : Nat} (hpos : 1 ≤ k)
    (hlength : k ≤ a.waypoints.length) (hwaypoints : a.waypoints.take k = b.waypoints.take k)
    (hagree : ∀ index, 1 ≤ index → index < k → a.AgreeAt b index)
    (hp : (c.compile a).result = .ok p) (hq : (c.compile b).result = .ok q) :
    ∃ common, c.Reaches (a.waypoints.take k) common ∧
      common <+: p.instructions ∧ common <+: q.instructions := by
  have houtward : c.outward a ((a.waypoints.take k).map c.frame) =
      c.outward b ((a.waypoints.take k).map c.frame) := by
    rw [outward, outward]
    congr 1
    apply c.flatMap_approach_eq
    intro index hindex hlt
    rw [List.length_map, List.length_take] at hlt
    exact hagree index hindex (by omega)
  refine ⟨_, c.reaches_writes_take a hpos hlength, c.writes_outward_isPrefix a hp k, ?_⟩
  rw [houtward, hwaypoints]
  exact c.writes_outward_isPrefix b hq k

/-- A path that is cut short fails no check that the whole path passes. -/
theorem exists_ok_truncate {p : Program} {k : Nat} (hpos : 1 ≤ k)
    (h : (c.compile path).result = .ok p) :
    ∃ q, (c.compile (path.truncate k)).result = .ok q := by
  obtain ⟨hne, -⟩ := c.compile_eq_ok path h
  rw [exists_ok_iff]
  have hpass := (c.exists_ok_iff path).mp ⟨p, h⟩
  intro fault hfault
  simp only [checks, frameChecks, List.mem_append, List.mem_singleton, List.mem_map,
    List.mem_flatMap, List.mem_range'_1, Prod.exists, List.mk_mem_zipIdx_iff_getElem?]
    at hfault hpass
  rcases hfault with ((hconfig | rfl) | ⟨w, index, hw, rfl⟩) | ⟨index, hindex, hvalue⟩
  · exact hpass fault (.inl (.inl (.inl hconfig)))
  · have hnonempty : (path.truncate k).waypoints.isEmpty = false := by
      simp [Toolpath.truncate, hne]
      omega
    rw [hnonempty]
    rfl
  · -- A waypoint that is left has the index that it had.
    have hkept : path.waypoints[index]? = some w := by
      rw [Toolpath.truncate, List.getElem?_take] at hw
      split at hw
      · exact hw
      · cases hw
    exact hpass _ (.inl (.inr ⟨w, index, hkept, rfl⟩))
  · refine hpass fault (.inr ⟨index, ?_, hvalue⟩)
    rw [Toolpath.truncate, List.length_take] at hindex
    omega

/-- Nothing that comes later changes what is written up to the move to a waypoint: two
paths with the same first waypoints, and with the same values there, give programs that
begin alike; and a path that is cut short gives the beginning of the same program. -/
theorem compile_causal :
    (∀ (a b : Toolpath) (k : Nat) (p q : Program), 1 ≤ k → k ≤ a.waypoints.length →
      a.waypoints.take k = b.waypoints.take k →
      (∀ index, 1 ≤ index → index < k → a.AgreeAt b index) →
      (c.compile a).result = .ok p → (c.compile b).result = .ok q →
        ∃ common, c.Reaches (a.waypoints.take k) common ∧
          common <+: p.instructions ∧ common <+: q.instructions) ∧
      ∀ (path : Toolpath) (k : Nat) (p : Program), 1 ≤ k → k ≤ path.waypoints.length →
        (c.compile path).result = .ok p →
          ∃ q opening, (c.compile (path.truncate k)).result = .ok q ∧
            q.instructions = opening ++ c.closing ∧
            c.Reaches (path.waypoints.take k) opening ∧ opening <+: p.instructions := by
  refine ⟨fun a b k p q hpos hlength hwaypoints hagree hp hq =>
    c.exists_common_beginning hpos hlength hwaypoints hagree hp hq, ?_⟩
  intro path k p hpos hlength hp
  obtain ⟨q, hq⟩ := c.exists_ok_truncate path hpos hp
  exact ⟨q, _, hq, c.instructions_eq_append_closing _ hq, c.reaches_writes_take path hpos hlength,
    c.writes_outward_isPrefix path hp k⟩

/-- The path of `pathSetting` with one more waypoint, and another value there. -/
def longerPath : Toolpath :=
  { (pathSetting "A").withVariable "A" ⟨[none, some (.integer 1), some (.switch true)]⟩ with
    waypoints := (pathSetting "A").waypoints ++ [⟨⟨2, 0, 0⟩, none⟩] }

theorem compile_causal_longerPath :
    ∃ p q, (standard.compile (pathSetting "A")).result = .ok p ∧
      (standard.compile longerPath).result = .ok q ∧
      (∃ common, standard.Reaches ((pathSetting "A").waypoints.take 2) common ∧
        common <+: p.instructions ∧ common <+: q.instructions) ∧
      ∃ r opening, (standard.compile (longerPath.truncate 2)).result = .ok r ∧
        r.instructions = opening ++ standard.closing ∧
        standard.Reaches (longerPath.waypoints.take 2) opening ∧ opening <+: q.instructions := by
  obtain ⟨p, hp⟩ := exists_ok_of_isOk standard (pathSetting "A") (by decide +kernel)
  obtain ⟨q, hq⟩ := exists_ok_of_isOk standard longerPath (by decide +kernel)
  have hagree : ∀ index, 1 ≤ index → index < 2 → (pathSetting "A").AgreeAt longerPath index := by
    intro index hpos hlt
    obtain rfl : index = 1 := by omega
    refine ⟨fun name => ?_, rfl⟩
    simp only [longerPath, pathSetting, Toolpath.withVariable, Toolpath.ofWaypoints,
      NameMap.find?_insert]
    by_cases hname : name = "A"
    · subst hname
      rfl
    · simp [hname]
  obtain ⟨hcommon, htruncate⟩ := compile_causal standard
  exact ⟨p, q, hp, hq,
    hcommon (pathSetting "A") longerPath 2 p q (by decide) (by decide) rfl hagree hp hq,
    htruncate longerPath 2 q (by decide) (by decide) hq⟩

end Compiler

end RobotPath
