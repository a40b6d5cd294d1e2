import RobotPath.Proofs.Interchange.Config
import RobotPath.Proofs.Interchange.Toolpath

/-!
# What is left of a job that was stored

A number that is not finite is stored as null. Where a number has to be there, null is
refused. There are two places where null has a meaning of its own: a pause that is null is
no pause, and a value that is null is a gap. So a job is read back without such a pause and
without such values, or not at all.
-/

namespace RobotPath

open Json

/-! ## Null is no number -/

namespace Json

theorem isFinite_of_float? {x found : Float} (h : float? (ofFloat x) = some found) :
    x.isFinite = true := by
  unfold ofFloat at h
  split at h
  next hfinite => exact hfinite
  next => cases h

section values

variable {α β : Type} {encode : α → Json} {read? : Json → Option β}

/-- A list is only read when all of its items are. -/
theorem forall_of_list? {items : List α} {found : List β}
    (h : list? read? (.array (items.map encode)) = some found) :
    ∀ a ∈ items, ∃ b, read? (encode a) = some b := by
  rw [list?] at h
  induction items generalizing found with
  | nil => exact List.forall_mem_nil _
  | cons item rest ih =>
      rw [List.map_cons, List.mapM_cons] at h
      obtain ⟨b, hitem, h⟩ := Option.bind_eq_some_iff.mp h
      obtain ⟨_, hrest, -⟩ := Option.bind_eq_some_iff.mp h
      exact List.forall_mem_cons.mpr ⟨⟨b, hitem⟩, ih hrest⟩

/-- A value that is not stored as null is not skipped. -/
theorem exists_of_nullable? {value : Option α} {found : Option β}
    (h : nullable? read? (ofOption encode value) = some found)
    (hnull : ∀ a, encode a ≠ .null) : ∀ a ∈ value, ∃ b, read? (encode a) = some b := by
  rintro a rfl
  change nullable? read? (encode a) = some found at h
  unfold nullable? at h
  split at h
  next heq => exact absurd heq (hnull a)
  next =>
    obtain ⟨b, hb, -⟩ := Option.map_eq_some_iff.mp h
    exact ⟨b, hb⟩

end values

theorem isFinite_of_floats? {n : Nat} {xs : List Float} {found : Vector Float n}
    (h : floats? n (.array (xs.map ofFloat)) = some found) : ∀ x ∈ xs, x.isFinite = true := by
  obtain ⟨_, hitems, -⟩ := Option.bind_eq_some_iff.mp h
  intro x hx
  obtain ⟨_, hread⟩ := forall_of_list? hitems x hx
  exact isFinite_of_float? hread

end Json

theorem Vec3.isFinite_of_ofJson? {v found : Vec3} (h : ofJson? v.toJson = some found) :
    v.isFinite = true := by
  obtain ⟨_, hitems, -⟩ := Option.bind_eq_some_iff.mp h
  exact v.isFinite_iff.mpr (isFinite_of_floats? hitems)

theorem AxisAngles.isFinite_of_ofJson? {a found : AxisAngles} {held : List (String × Json)}
    (hheld : (held.filter fun member => fieldNames.contains member.1) = a.members)
    (h : ofJson? (.record held) = some found) : a.isFinite = true := by
  have hnodup : (a.members.map Prod.fst).Nodup := show fieldNames.Nodup by decide
  rw [ofJson?, bind_of_eq_some (record?_record hheld hnodup)] at h
  obtain ⟨_, haxes, h⟩ := Option.bind_eq_some_iff.mp h
  obtain ⟨_, hexternal, -⟩ := Option.bind_eq_some_iff.mp h
  refine a.isFinite_iff.mpr ⟨?_, fun external he => ?_⟩
  · exact isFinite_of_floats? (Record.of_required hnodup haxes (by simp [members]))
  · have hfield := Record.of_optional hnodup hexternal (List.mem_cons_of_mem _ List.mem_cons_self)
    obtain ⟨_, hread⟩ := exists_of_nullable? hfield (fun _ hnull => by cases hnull) external he
    exact isFinite_of_floats? hread

theorem Frame.isFinite_of_ofJson? {f found : Frame} {held : List (String × Json)}
    (hheld : (held.filter fun member => fieldNames.contains member.1) = f.members)
    (h : ofJson? (.record held) = some found) : f.isFinite = true := by
  have hnodup : (f.members.map Prod.fst).Nodup := show fieldNames.Nodup by decide
  rw [ofJson?, bind_of_eq_some (record?_record hheld hnodup)] at h
  obtain ⟨_, hposition, h⟩ := Option.bind_eq_some_iff.mp h
  obtain ⟨_, horientation, -⟩ := Option.bind_eq_some_iff.mp h
  rw [isFinite, Bool.and_eq_true]
  exact ⟨Vec3.isFinite_of_ofJson? (Record.of_required hnodup hposition (by simp [members])),
    Vec3.isFinite_of_ofJson? (Record.of_required hnodup horientation (by simp [members]))⟩

theorem Pose.isFinite_of_ofJson? {pose found : Pose} {enclosing : Nat}
    (henclosing : 2 + enclosing ≤ deepestNesting)
    (h : ofJson? enclosing pose.toJson = some found) : pose.isFinite = true := by
  have hdepth : pose.toJson.depth + enclosing ≤ deepestNesting := by rwa [depth_toJson]
  have hsound := pose.isSound_toJson
  cases pose with
  | joint angles =>
      have hshaped : ofJson? enclosing (joint angles).toJson =
          ofShaped? (joint angles).toJson .joint := ofJson?_record rfl hsound hdepth
      rw [hshaped] at h
      obtain ⟨_, hangles, -⟩ := Option.map_eq_some_iff.mp h
      exact AxisAngles.isFinite_of_ofJson? rfl hangles
  | cartesian frame =>
      have hshaped : ofJson? enclosing (cartesian frame).toJson =
          ofShaped? (cartesian frame).toJson .cartesian := ofJson?_record rfl hsound hdepth
      rw [hshaped] at h
      obtain ⟨_, hframe, -⟩ := Option.map_eq_some_iff.mp h
      exact Frame.isFinite_of_ofJson? rfl hframe

theorem Tool.isFinite_of_ofJson? {tool found : Tool} (h : ofJson? tool.toJson = some found) :
    tool.IsFinite := by
  have hnodup : (tool.members.map Prod.fst).Nodup := show fieldNames.Nodup by decide
  have hrecord : record? fieldNames tool.toJson = some tool.members := record?_members rfl hnodup
  rw [ofJson?, bind_of_eq_some hrecord] at h
  obtain ⟨_, -, h⟩ := Option.bind_eq_some_iff.mp h
  obtain ⟨_, hmass, h⟩ := Option.bind_eq_some_iff.mp h
  obtain ⟨_, hcenter, -⟩ := Option.bind_eq_some_iff.mp h
  exact ⟨isFinite_of_float? (Record.of_required hnodup hmass (by simp [members])),
    Vec3.isFinite_of_ofJson? (Record.of_required hnodup hcenter (by simp [members]))⟩

theorem Base.isFinite_of_ofJson? {base found : Base} (h : ofJson? base.toJson = some found) :
    base.frame.isFinite = true := by
  have hnodup : (base.members.map Prod.fst).Nodup := show fieldNames.Nodup by decide
  have hrecord : record? fieldNames base.toJson = some base.members := record?_members rfl hnodup
  rw [ofJson?, bind_of_eq_some hrecord] at h
  obtain ⟨_, -, h⟩ := Option.bind_eq_some_iff.mp h
  obtain ⟨_, hposition, h⟩ := Option.bind_eq_some_iff.mp h
  obtain ⟨_, horientation, -⟩ := Option.bind_eq_some_iff.mp h
  rw [Frame.isFinite, Bool.and_eq_true]
  exact ⟨Vec3.isFinite_of_ofJson?
      (Record.of_required hnodup hposition (by simp [members, Frame.members])),
    Vec3.isFinite_of_ofJson?
      (Record.of_required hnodup horientation (by simp [members, Frame.members]))⟩

theorem Waypoint.isFinite_of_ofJson? {w found : Waypoint} (h : ofJson? w.toJson = some found) :
    w.IsFinite := by
  have hnodup : (w.members.map Prod.fst).Nodup := show fieldNames.Nodup by decide
  have hrecord : record? fieldNames w.toJson = some w.members := record?_members rfl hnodup
  rw [ofJson?, bind_of_eq_some hrecord] at h
  obtain ⟨_, hposition, h⟩ := Option.bind_eq_some_iff.mp h
  obtain ⟨_, horientation, -⟩ := Option.bind_eq_some_iff.mp h
  refine ⟨Vec3.isFinite_of_ofJson? (Record.of_required hnodup hposition (by simp [members])),
    fun orientation ho => ?_⟩
  have hfield := Record.of_optional hnodup horientation
    (List.mem_cons_of_mem _ List.mem_cons_self)
  obtain ⟨_, hread⟩ := exists_of_nullable? hfield (fun _ hnull => by cases hnull) orientation ho
  exact Vec3.isFinite_of_ofJson? hread

/-! ## Null in place of a pause -/

namespace Config

/-- The configuration without a pause that is no finite number. -/
def stored (c : Config) : Config :=
  { c with settleTime := c.settleTime.filter Float.isFinite }

theorem isFinite_settleTime_stored (c : Config) :
    ∀ seconds ∈ c.stored.settleTime, seconds.isFinite = true :=
  fun _ h => (Option.mem_filter_iff.mp h).2

/-- Such a pause is stored like none. -/
theorem toJson_stored (c : Config) : c.stored.toJson = c.toJson := by
  have hpause : ofOption ofFloat (c.settleTime.filter Float.isFinite) =
      ofOption ofFloat c.settleTime := by
    cases c.settleTime with
    | none => rfl
    | some seconds =>
        rw [Option.filter_some]
        split
        next => rfl
        next h => exact (if_neg h).symm
  rw [toJson, toJson, members, members, stored, hpause]

theorem isFinite_stored_of_ofJson? {c found : Config} (h : ofJson? c.toJson = some found) :
    c.stored.IsFinite := by
  have hnodup : (c.members.map Prod.fst).Nodup := show fieldNames.Nodup by decide
  have hrecord : record? fieldNames c.toJson = some c.members := record?_members rfl hnodup
  rw [ofJson?, bind_of_eq_some hrecord] at h
  obtain ⟨_, -, h⟩ := Option.bind_eq_some_iff.mp h
  obtain ⟨_, -, h⟩ := Option.bind_eq_some_iff.mp h
  obtain ⟨_, -, h⟩ := Option.bind_eq_some_iff.mp h
  obtain ⟨_, hspeedPercent, h⟩ := Option.bind_eq_some_iff.mp h
  obtain ⟨_, hacceleration, h⟩ := Option.bind_eq_some_iff.mp h
  obtain ⟨_, hpathSpeed, h⟩ := Option.bind_eq_some_iff.mp h
  obtain ⟨_, -, h⟩ := Option.bind_eq_some_iff.mp h
  obtain ⟨_, hhome, h⟩ := Option.bind_eq_some_iff.mp h
  obtain ⟨_, horientation, h⟩ := Option.bind_eq_some_iff.mp h
  obtain ⟨_, -, h⟩ := Option.bind_eq_some_iff.mp h
  obtain ⟨_, -, h⟩ := Option.bind_eq_some_iff.mp h
  obtain ⟨_, -, h⟩ := Option.bind_eq_some_iff.mp h
  obtain ⟨_, htool, h⟩ := Option.bind_eq_some_iff.mp h
  obtain ⟨_, hbase, -⟩ := Option.bind_eq_some_iff.mp h
  have htoolField := Record.of_optional hnodup htool
    (show ("tool_data", ofOption Tool.toJson c.tool) ∈ c.members by simp [members])
  have hbaseField := Record.of_optional hnodup hbase
    (show ("base_frame", ofOption Base.toJson c.base) ∈ c.members by simp [members])
  exact {
    speedPercent :=
      isFinite_of_float? (Record.of_optional hnodup hspeedPercent (by simp [members, stored]))
    acceleration :=
      isFinite_of_float? (Record.of_optional hnodup hacceleration (by simp [members, stored]))
    pathSpeed :=
      isFinite_of_float? (Record.of_optional hnodup hpathSpeed (by simp [members, stored]))
    home := Pose.isFinite_of_ofJson? (by decide)
      (Record.of_optional hnodup hhome (by simp [members, stored]))
    defaultOrientation :=
      Vec3.isFinite_of_ofJson? (Record.of_optional hnodup horientation (by simp [members, stored]))
    settleTime := c.isFinite_settleTime_stored
    tool := fun tool h => by
      obtain ⟨_, hread⟩ := exists_of_nullable? htoolField (fun _ hnull => by cases hnull) tool h
      exact Tool.isFinite_of_ofJson? hread
    base := fun base h => by
      obtain ⟨_, hread⟩ := exists_of_nullable? hbaseField (fun _ hnull => by cases hnull) base h
      exact Base.isFinite_of_ofJson? hread }

/-- A stored configuration is read back without its pause if that is not finite, and not
at all if another number is not. -/
theorem ofJson?_toJson_eq_some_iff {c found : Config} :
    ofJson? c.toJson = some found ↔ c.stored.IsFinite ∧ c.stored = found := by
  have hread (h : c.stored.IsFinite) : ofJson? c.toJson = some c.stored := by
    rw [← toJson_stored, ofJson?_toJson h]
  constructor
  · intro h
    have hfinite := isFinite_stored_of_ofJson? h
    rw [hread hfinite, Option.some_inj] at h
    exact ⟨hfinite, h⟩
  · rintro ⟨hfinite, rfl⟩
    exact hread hfinite

end Config

/-! ## Null in place of a value -/

/-- The value, unless it is a decimal that is not finite. -/
def ProcessValue.stored? : ProcessValue → Option ProcessValue
  | .decimal value => if value.isFinite then some (.decimal value) else none
  | value => some value

theorem ProcessValue.ofOption_stored? (value : ProcessValue) :
    ofOption toJson value.stored? = value.toJson := by
  cases value with
  | switch | integer => rfl
  | decimal x =>
      rw [stored?, toJson, ofFloat]
      split
      next hfinite => exact if_pos hfinite
      next => rfl

theorem ProcessValue.isFinite_of_stored? {value found : ProcessValue}
    (h : value.stored? = some found) : found.IsFinite := by
  cases value with
  | switch | integer =>
      cases h
      trivial
  | decimal x =>
      obtain ⟨hfinite, heq⟩ := Option.ite_none_right_eq_some.mp h
      cases heq
      exact hfinite

namespace Profile

/-- The profile with gaps in place of the decimals that are not finite. -/
def stored (p : Profile) : Profile where
  values := p.values.map fun value? => value?.bind ProcessValue.stored?

theorem get?_stored (p : Profile) (index : Nat) :
    p.stored.get? index = (p.get? index).bind ProcessValue.stored? := by
  rw [get?, get?, stored, List.getElem?_map]
  cases p.values[index]? <;> rfl

theorem get?_stored_of_forall {p : Profile} {index : Nat}
    (h : ∀ value, p.get? index = some value → value.stored? = some value) :
    p.stored.get? index = p.get? index := by
  rw [get?_stored]
  cases hvalue : p.get? index with
  | none => rfl
  | some value => exact h value hvalue

theorem toJson_stored (p : Profile) : p.stored.toJson = p.toJson := by
  rw [toJson, toJson, stored, List.map_map]
  congr 2
  funext value?
  cases value? with
  | none => rfl
  | some value => exact value.ofOption_stored?

theorem isFinite_stored (p : Profile) : p.stored.IsFinite := by
  intro value hvalue
  obtain ⟨value?, -, h⟩ := List.mem_map.mp hvalue
  obtain ⟨_, -, hstored⟩ := Option.bind_eq_some_iff.mp h
  exact ProcessValue.isFinite_of_stored? hstored

end Profile

namespace Toolpath

/-- The toolpath with gaps in place of the decimals that are not finite. -/
def stored (path : Toolpath) : Toolpath where
  waypoints := path.waypoints
  speed := path.speed.map Profile.stored
  profiles := path.profiles.filterMap fun profile => some profile.stored

theorem entries_stored (path : Toolpath) :
    path.stored.profiles.entries =
      path.profiles.entries.map fun entry => (entry.1, entry.2.stored) := by
  exact congrFun List.filterMap_eq_map' _

/-- Such a decimal is stored like a gap. -/
theorem toJson_stored (path : Toolpath) : path.stored.toJson = path.toJson := by
  have hspeed : ofOption Profile.toJson (path.speed.map Profile.stored) =
      ofOption Profile.toJson path.speed := by
    cases path.speed with
    | none => rfl
    | some profile => exact profile.toJson_stored
  have hprofiles : path.stored.profiles.toJson Profile.toJson =
      path.profiles.toJson Profile.toJson := by
    rw [NameMap.toJson, NameMap.toJson, entries_stored, List.map_map]
    congr 2
    funext entry
    exact congrArg (entry.1, ·) entry.2.toJson_stored
  rw [toJson, toJson, hprofiles, stored, hspeed]

theorem isFinite_stored {path : Toolpath} (h : ∀ w ∈ path.waypoints, w.IsFinite) :
    path.stored.IsFinite := by
  refine ⟨h, fun profile hp => ?_, fun entry he => ?_⟩
  · obtain ⟨p, -, rfl⟩ := Option.map_eq_some_iff.mp hp
    exact p.isFinite_stored
  · rw [entries_stored] at he
    obtain ⟨p, -, rfl⟩ := List.mem_map.mp he
    exact p.2.isFinite_stored

theorem isFinite_of_ofJson? {path found : Toolpath} (h : ofJson? path.toJson = some found) :
    ∀ w ∈ path.waypoints, w.IsFinite := by
  have hnodup : (path.members.map Prod.fst).Nodup := show fieldNames.Nodup by decide
  have hrecord : record? fieldNames path.toJson = some path.members := record?_members rfl hnodup
  rw [ofJson?, bind_of_eq_some hrecord] at h
  obtain ⟨_, hwaypoints, -⟩ := Option.bind_eq_some_iff.mp h
  have hlist := Record.of_required hnodup hwaypoints List.mem_cons_self
  intro w hw
  obtain ⟨_, hread⟩ := forall_of_list? hlist w hw
  exact Waypoint.isFinite_of_ofJson? hread

/-- A stored toolpath is read back with gaps in place of the decimals that are not finite,
and not at all if a waypoint is not. -/
theorem ofJson?_toJson_eq_some_iff {path found : Toolpath} :
    ofJson? path.toJson = some found ↔
      (∀ w ∈ path.waypoints, w.IsFinite) ∧ path.stored = found := by
  have hread (h : ∀ w ∈ path.waypoints, w.IsFinite) : ofJson? path.toJson = some path.stored := by
    rw [← toJson_stored, ofJson?_toJson (isFinite_stored h)]
  constructor
  · intro h
    have hfinite := isFinite_of_ofJson? h
    rw [hread hfinite, Option.some_inj] at h
    exact ⟨hfinite, h⟩
  · rintro ⟨hfinite, rfl⟩
    exact hread hfinite

end Toolpath

end RobotPath
