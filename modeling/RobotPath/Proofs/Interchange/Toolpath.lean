import RobotPath.Interchange.Toolpath
import RobotPath.Proofs.Interchange.Pose
import RobotPath.Proofs.NameMap

/-!
# Stored toolpaths are read back

A value is stored without its kind, and null stands for a gap, for an orientation that a
waypoint lacks and for a path that says nothing of the speed. Still each value is read back
as what it was: booleans, integers and other numbers are told apart by how they are written,
and null never stands for a value.
-/

namespace RobotPath

open Json

namespace ProcessValue

/-- A value that is not an infinite decimal, or one that is not a number. -/
def IsFinite : ProcessValue → Prop
  | .decimal value => value.isFinite = true
  | .switch _ | .integer _ => True

/-- A value comes back as the kind that it was. -/
theorem ofJson?_toJson {value : ProcessValue} (h : value.IsFinite) :
    ofJson? value.toJson = some value := by
  cases value with
  | switch on => rfl
  | integer n =>
      have hrange : Int64.minValue.toInt ≤ n.toInt ∧ n.toInt ≤ Int64.maxValue.toInt :=
        ⟨n.minValue_le_toInt, n.toInt_le⟩
      rw [toJson, ofJson?, if_pos hrange, Int64.ofInt_toInt]
  | decimal x =>
      have hx : x.isFinite = true := h
      rw [toJson, ofFloat, if_pos hx, ofJson?, if_pos hx]

end ProcessValue

/-- A profile without values that are not finite. -/
def Profile.IsFinite (p : Profile) : Prop := ∀ value, some value ∈ p.values → value.IsFinite

/-- A profile comes back with its gaps, also those at its end. -/
theorem Profile.ofJson?_toJson {p : Profile} (h : p.IsFinite) : ofJson? p.toJson = some p := by
  have hvalues : list? (nullable? ProcessValue.ofJson?) p.toJson = some p.values := by
    refine list?_map fun value? hvalue? => nullable?_ofOption rfl fun value hvalue => ?_
    cases hvalue
    exact ProcessValue.ofJson?_toJson (h value hvalue?)
  rw [ofJson?, hvalues, Option.map_some]

namespace Waypoint

/-- A waypoint whose numbers are finite. -/
def IsFinite (w : Waypoint) : Prop :=
  w.position.isFinite = true ∧ ∀ orientation ∈ w.orientation, orientation.isFinite = true

/-- The stored fields of a waypoint. -/
def members (w : Waypoint) : Record :=
  [("position", w.position.toJson), ("orientation", ofOption Vec3.toJson w.orientation)]

theorem ofJson?_toJson {w : Waypoint} (h : w.IsFinite) : ofJson? w.toJson = some w := by
  have hnodup : (w.members.map Prod.fst).Nodup := show fieldNames.Nodup by decide
  have hrecord : record? fieldNames w.toJson = some w.members := record?_members rfl hnodup
  have hposition : w.members.required "position" Vec3.ofJson? = some w.position :=
    Record.required_of_mem hnodup (by simp [members]) (Vec3.ofJson?_toJson h.1)
  have hnullable : nullable? Vec3.ofJson? (ofOption Vec3.toJson w.orientation) =
      some w.orientation :=
    nullable?_ofOption rfl fun orientation ho => Vec3.ofJson?_toJson (h.2 orientation ho)
  have horientation : w.members.optional "orientation" (nullable? Vec3.ofJson?) none =
      some w.orientation :=
    Record.optional_of_mem hnodup (by simp [members]) hnullable none
  rw [ofJson?, bind_of_eq_some hrecord, bind_of_eq_some hposition, bind_of_eq_some horientation]
  rfl

end Waypoint

namespace NameMap

variable {α : Type}

theorem insertEntry_of_forall_lt {name : String} {value : α} {entries : List (String × α)}
    (h : ∀ entry ∈ entries, entry.1 < name) :
    insertEntry name value entries = entries ++ [(name, value)] := by
  induction entries with
  | nil => rfl
  | cons entry rest ih =>
      rw [List.forall_mem_cons] at h
      have hne : name ≠ entry.1 := by
        rintro rfl
        exact String.lt_irrefl _ h.1
      rw [insertEntry, if_neg hne, if_neg (String.lt_asymm h.1), ih h.2, List.cons_append]

/-- Entries that come in order are put one after the other. -/
theorem entries_foldl_insert (m : NameMap α) (entries : List (String × α))
    (hsorted : (m.entries ++ entries).Pairwise fun a b => a.1 < b.1) :
    (entries.foldl (fun m entry => m.insert entry.1 entry.2) m).entries = m.entries ++ entries := by
  induction entries generalizing m with
  | nil => exact (List.append_nil _).symm
  | cons entry rest ih =>
      have hinsert : (m.insert entry.1 entry.2).entries = m.entries ++ [entry] := by
        apply insertEntry_of_forall_lt
        intro earlier hearlier
        exact (List.pairwise_append.mp hsorted).2.2 earlier hearlier entry List.mem_cons_self
      rw [List.foldl_cons, ih, hinsert, List.append_assoc, List.singleton_append]
      rwa [hinsert, List.append_assoc, List.singleton_append]

theorem ofList_entries (m : NameMap α) : ofList m.entries = m := by
  have hentries : (ofList m.entries).entries = m.entries :=
    entries_foldl_insert empty m.entries m.pairwise_entries
  ext1 name
  rw [find?, hentries, find?]

/-- A map is read back when all of its values are. -/
theorem ofJson?_toJson {encode : α → Json} {read? : Json → Option α} {m : NameMap α}
    (h : ∀ entry ∈ m.entries, read? (encode entry.2) = some entry.2) :
    ofJson? read? (m.toJson encode) = some m := by
  have hentries (entries : List (String × α))
      (h : ∀ entry ∈ entries, read? (encode entry.2) = some entry.2) :
      (entries.map fun entry => (some entry.1, encode entry.2)).mapM
        (fun member : Option String × Json => do return (← member.1, ← read? member.2)) =
          some entries := by
    induction entries with
    | nil => rfl
    | cons entry rest ih =>
        rw [List.forall_mem_cons] at h
        rw [List.map_cons, List.mapM_cons, ih h.2]
        simp [h.1]
  have hmap : m.toJson encode =
      .object (m.entries.map fun entry => (some entry.1, encode entry.2)) := by
    rw [toJson, record, List.map_map]
    rfl
  rw [hmap, ofJson?, bind_of_eq_some (hentries m.entries h), ofList_entries]
  rfl

end NameMap

namespace Toolpath

/-- A toolpath whose numbers are finite. -/
structure IsFinite (path : Toolpath) : Prop where
  waypoints : ∀ w ∈ path.waypoints, w.IsFinite
  speed : ∀ profile ∈ path.speed, profile.IsFinite
  profiles : ∀ entry ∈ path.profiles.entries, entry.2.IsFinite

/-- The stored fields of a toolpath. -/
def members (path : Toolpath) : Record :=
  [("waypoints", .array (path.waypoints.map Waypoint.toJson)),
   ("path_speed", ofOption Profile.toJson path.speed),
   ("variables", path.profiles.toJson Profile.toJson)]

theorem ofJson?_toJson {path : Toolpath} (h : path.IsFinite) : ofJson? path.toJson = some path := by
  have hnodup : (path.members.map Prod.fst).Nodup := show fieldNames.Nodup by decide
  have hrecord : record? fieldNames path.toJson = some path.members := record?_members rfl hnodup
  have hlist : list? Waypoint.ofJson? (.array (path.waypoints.map Waypoint.toJson)) =
      some path.waypoints := list?_map fun w hw => Waypoint.ofJson?_toJson (h.waypoints w hw)
  have hwaypoints : path.members.required "waypoints" (list? Waypoint.ofJson?) =
      some path.waypoints := Record.required_of_mem hnodup (by simp [members]) hlist
  have hnullable : nullable? Profile.ofJson? (ofOption Profile.toJson path.speed) =
      some path.speed :=
    nullable?_ofOption rfl fun profile hp => Profile.ofJson?_toJson (h.speed profile hp)
  have hspeed : path.members.optional "path_speed" (nullable? Profile.ofJson?) none =
      some path.speed := Record.optional_of_mem hnodup (by simp [members]) hnullable none
  have hmap : NameMap.ofJson? Profile.ofJson? (path.profiles.toJson Profile.toJson) =
      some path.profiles :=
    NameMap.ofJson?_toJson fun entry he => Profile.ofJson?_toJson (h.profiles entry he)
  have hprofiles : path.members.optional "variables" (NameMap.ofJson? Profile.ofJson?) ∅ =
      some path.profiles := Record.optional_of_mem hnodup (by simp [members]) hmap ∅
  rw [ofJson?, bind_of_eq_some hrecord, bind_of_eq_some hwaypoints, bind_of_eq_some hspeed,
    bind_of_eq_some hprofiles]
  rfl

/-- What is stored of a toolpath or a placement is read back as what it was, from its stored
form and from any text that spells that form. -/
theorem read_toJson {path : Toolpath} {t : Placement} (hpath : path.IsFinite) (ht : t.IsFinite) :
    ofJson? path.toJson = some path ∧
      (∀ text, Json.read? text = some path.toJson → read text = .ok path) ∧
      Placement.ofJson? t.toJson = some t := by
  refine ⟨ofJson?_toJson hpath, fun text htext => ?_, Placement.ofJson?_toJson ht⟩
  rw [read, htext, bind_of_eq_some rfl, ofJson?_toJson hpath]

/-- A path with values of each kind, a gap in between and one at the end. -/
def pathOfKinds : Toolpath :=
  (ofWaypoints [⟨Vec3.zero, none⟩, ⟨⟨1, 0, 0⟩, some Vec3.zero⟩]).withVariable "A"
    ⟨[some (.integer Int64.minValue), some (.decimal 1), none, some (.decimal (-0)),
      some (.switch true), none]⟩

/-- The text of that path. -/
def textOfKinds : String :=
  "\x7b\"waypoints\":[\x7b\"position\":[0.0,0.0,0.0],\"orientation\":null\x7d,
  \x7b\"position\":[1.0,0.0,0.0],\"orientation\":[0.0,0.0,0.0]\x7d],\"path_speed\":null,
  \"variables\":\x7b\"A\":[-9223372036854775808,1.0,null,-0.0,true,null]\x7d\x7d"

set_option maxRecDepth 4000 in
theorem read?_textOfKinds : Json.read? textOfKinds = some pathOfKinds.toJson := by
  rfl

/-- A placement with no two numbers the same. -/
def placementOfDistinct : Placement :=
  ⟨⟨⟨1, 2, 3⟩, ⟨4, 5, 6⟩, ⟨7, 8, 9⟩, ⟨10, 11, 12⟩⟩, ⟨-0.5, 1000, -0⟩⟩

theorem read_toJson_pathOfKinds :
    (pathOfKinds.IsFinite ∧ placementOfDistinct.IsFinite) ∧
      ofJson? pathOfKinds.toJson = some pathOfKinds ∧
      (Json.read? textOfKinds = some pathOfKinds.toJson ∧ read textOfKinds = .ok pathOfKinds) ∧
      Placement.ofJson? placementOfDistinct.toJson = some placementOfDistinct := by
  have hwaypoints : ∀ w ∈ pathOfKinds.waypoints, w.IsFinite := by
    have hzero : Vec3.zero.isFinite = true := by decide +kernel
    have hone : (⟨1, 0, 0⟩ : Vec3).isFinite = true := by decide +kernel
    simp [pathOfKinds, withVariable, ofWaypoints, Waypoint.IsFinite, hzero, hone]
  have hprofiles : ∀ entry ∈ pathOfKinds.profiles.entries, entry.2.IsFinite := by
    refine List.forall_mem_singleton.mpr fun value hvalue => ?_
    simp only [List.mem_cons, Option.some_inj, reduceCtorEq, List.not_mem_nil, false_or, or_false]
      at hvalue
    rcases hvalue with rfl | rfl | rfl | rfl
    · trivial
    · exact (by decide +kernel : (1 : Float).isFinite = true)
    · exact (by decide +kernel : (-0 : Float).isFinite = true)
    · trivial
  have hpath : pathOfKinds.IsFinite := ⟨hwaypoints, nofun, hprofiles⟩
  have ht : placementOfDistinct.IsFinite := ⟨by decide +kernel, by decide +kernel⟩
  obtain ⟨hstored, hread, hplacement⟩ := read_toJson hpath ht
  exact ⟨⟨hpath, ht⟩, hstored, ⟨read?_textOfKinds, hread textOfKinds read?_textOfKinds⟩,
    hplacement⟩

/-- How a number is written tells its kind. -/
example : read "\x7b\"waypoints\":[],\"variables\":\x7b\"A\":[1,1.0,-0.0,null]\x7d\x7d" =
    .ok ((ofWaypoints []).withVariable "A"
      ⟨[some (.integer 1), some (.decimal 1), some (.decimal (-0)), none]⟩) := rfl

end Toolpath

end RobotPath
