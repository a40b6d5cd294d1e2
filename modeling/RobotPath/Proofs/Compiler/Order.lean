import Mathlib.Data.List.Nodup
import RobotPath.Compiler.Basic
import RobotPath.Proofs.NameMap

/-!
# What a path asks for

A map has one value for a name, and the order of assignment leaves out none of its
entries and adds none. So the settings that a path asks for can be told from the
profiles of its variables alone, whatever the priority is.
-/

namespace RobotPath

theorem nodup_eraseDups : (names : List String) → names.eraseDups.Nodup
  | [] => List.nodup_nil
  | name :: rest => by
      rw [List.eraseDups_cons, List.nodup_cons]
      exact ⟨by simp [List.mem_eraseDups], nodup_eraseDups _⟩
termination_by names => names.length
decreasing_by exact Nat.lt_succ_of_le (List.length_filter_le _ rest)

namespace Config

variable {α β : Type}

/-- The order of assignment has the entries of the map and no others. -/
theorem mem_ordered_iff (c : Config) {m : NameMap α} {name : String} {value : α} :
    (name, value) ∈ c.ordered m ↔ m.find? name = some value := by
  unfold ordered
  rw [List.mem_append, List.mem_filterMap, List.mem_filter, NameMap.mem_entries_iff]
  constructor
  · rintro (⟨listed, -, hlisted⟩ | ⟨hfound, -⟩)
    · obtain ⟨found, hfound, heq⟩ := Option.map_eq_some_iff.mp hlisted
      cases heq
      exact hfound
    · exact hfound
  · intro hfound
    by_cases hlisted : name ∈ c.variablePriority
    · exact .inl ⟨name, List.mem_eraseDups.mpr hlisted, by rw [hfound]; rfl⟩
    · exact .inr ⟨hfound, by simpa using hlisted⟩

/-- Leaving out entries and changing values does not disturb the order. -/
theorem ordered_filterMap (c : Config) (f : α → Option β) (m : NameMap α) :
    c.ordered (m.filterMap f) =
      (c.ordered m).filterMap fun (name, value) => (f value).map (name, ·) := by
  unfold ordered
  dsimp only
  rw [List.filterMap_append, List.filterMap_filterMap, List.filterMap_filter, NameMap.filterMap,
    List.filter_filterMap]
  congr 1
  · apply List.filterMap_congr
    intro name _
    change ((m.filterMap f).find? name).map (name, ·) = _
    rw [NameMap.find?_filterMap]
    cases m.find? name with
    | none => rfl
    | some value => rfl
  · apply List.filterMap_congr
    rintro ⟨name, value⟩ _
    dsimp only
    by_cases hlisted : c.variablePriority.contains name = true
    · cases f value <;> simp_all
    · cases f value <;> simp_all

/-- Leaving out a name leaves the others in their order. -/
theorem ordered_erase (c : Config) (m : NameMap α) (name : String) :
    c.ordered (m.erase name) = (c.ordered m).filter fun entry => entry.1 ≠ name := by
  unfold ordered
  dsimp only
  rw [List.filter_append, List.filter_filterMap, NameMap.erase, List.filter_filter,
    List.filter_filter]
  congr 1
  · apply List.filterMap_congr
    intro key _
    change ((m.erase name).find? key).map (key, ·) = _
    rw [NameMap.find?_erase]
    by_cases h : key = name
    · cases m.find? key <;> simp [h, Option.filter]
    · cases m.find? key <;> simp [h, Option.filter]
  · apply List.filter_congr
    intro entry _
    exact Bool.and_comm _ _

section parts

variable {c : Config} {m : NameMap α} {entry : String × α}

theorem name_mem_of_listed (h : entry ∈ c.variablePriority.eraseDups.filterMap fun name =>
    (m.find? name).map (name, ·)) : entry.1 ∈ c.variablePriority := by
  obtain ⟨name, hname, hfound⟩ := List.mem_filterMap.mp h
  obtain ⟨_, -, rfl⟩ := Option.map_eq_some_iff.mp hfound
  exact List.mem_eraseDups.mp hname

theorem name_notMem_of_unlisted (h : entry ∈ m.entries.filter fun entry =>
    !c.variablePriority.contains entry.1) : entry.1 ∉ c.variablePriority := by
  simpa using (List.mem_filter.mp h).2

end parts

/-- No name comes twice in the order of assignment. -/
theorem nodup_names_ordered (c : Config) (m : NameMap α) :
    ((c.ordered m).map Prod.fst).Nodup := by
  unfold ordered
  rw [List.map_append, List.nodup_append]
  refine ⟨?_, ?_, ?_⟩
  · rw [List.map_filterMap]
    apply List.Nodup.filterMap _ (nodup_eraseDups _)
    intro name name' key hkey hkey'
    rw [Option.map_map] at hkey hkey'
    obtain ⟨_, -, rfl⟩ := Option.map_eq_some_iff.mp hkey
    obtain ⟨_, -, rfl⟩ := Option.map_eq_some_iff.mp hkey'
    rfl
  · exact (m.sorted.imp Std.ne_of_lt).sublist (List.filter_sublist.map Prod.fst)
  · -- Only names without a priority come after the listed ones.
    rintro name hname _ hother rfl
    obtain ⟨entry, hentry, rfl⟩ := List.mem_map.mp hname
    obtain ⟨entry', hentry', hsame⟩ := List.mem_map.mp hother
    exact name_notMem_of_unlisted hentry' (hsame ▸ name_mem_of_listed hentry)

theorem perm_ordered (c c' : Config) (m : NameMap α) : (c.ordered m).Perm (c'.ordered m) := by
  rw [List.perm_ext_iff_of_nodup (c.nodup_names_ordered m).of_map (c'.nodup_names_ordered m).of_map]
  rintro ⟨name, value⟩
  rw [mem_ordered_iff, mem_ordered_iff]

end Config

/-- Whether a request sets a value, a variable or the path speed. -/
def Request.isSetting : Request → Bool
  | .assign .. | .pathSpeed .. => true
  | .travel _ | .follow _ | .output .. => false

namespace Compiler

variable (c : Compiler) (path : Toolpath)

theorem assign_mem_settings_iff {index index' : Nat} {name : String} {value : ProcessValue} :
    .assign index name value ∈ c.settings path index' ↔
      index = index' ∧
        ∃ profile, path.profiles.find? name = some profile ∧ profile.get? index' = some value := by
  have hspeed : .assign index name value ∉
      ((path.speed.bind (·.get? index')).map (Request.pathSpeed index')).toList := by
    rw [Option.mem_toList, Option.map_eq_some_iff]
    rintro ⟨_, -, h⟩
    cases h
  rw [settings, List.mem_append, or_iff_left hspeed, List.mem_filterMap]
  constructor
  · rintro ⟨⟨key, profile⟩, hmem, hvalue⟩
    obtain ⟨found, hfound, heq⟩ := Option.map_eq_some_iff.mp hvalue
    cases heq
    exact ⟨rfl, profile, c.config.mem_ordered_iff.mp hmem, hfound⟩
  · rintro ⟨rfl, profile, hfind, hvalue⟩
    exact ⟨(name, profile), c.config.mem_ordered_iff.mpr hfind,
      Option.map_eq_some_iff.mpr ⟨value, hvalue, rfl⟩⟩

theorem pathSpeed_mem_settings_iff {index index' : Nat} {value : ProcessValue} :
    .pathSpeed index value ∈ c.settings path index' ↔
      index = index' ∧ path.speed.bind (·.get? index') = some value := by
  rw [settings, List.mem_append, List.mem_filterMap, Option.mem_toList, Option.map_eq_some_iff]
  constructor
  · intro h
    rcases h with ⟨entry, -, hassign⟩ | ⟨_, hvalue, heq⟩
    · obtain ⟨_, -, heq⟩ := Option.map_eq_some_iff.mp hassign
      cases heq
    · cases heq
      exact ⟨rfl, hvalue⟩
  · rintro ⟨rfl, hvalue⟩
    exact .inr ⟨value, hvalue, rfl⟩

/-- The settings that a path asks for are those of its later waypoints. -/
theorem mem_requests_iff {frames : List Frame} {r : Request} (hr : r.isSetting = true) :
    r ∈ c.requests path frames ↔
      ∃ index, 0 < index ∧ index < frames.length ∧ r ∈ c.settings path index := by
  have htravel (target : Pose) : r ≠ .travel target := by
    rintro rfl
    cases hr
  have hfollow (target : Frame) : r ≠ .follow target := by
    rintro rfl
    cases hr
  have houtput (on : Bool) : r ∉ c.processOutput on := by
    rw [processOutput, Option.mem_toList, Option.map_eq_some_iff]
    rintro ⟨_, -, rfl⟩
    cases hr
  have happroach (frame : Frame) (index : Nat) :
      r ∈ c.approach path frame index ↔ 0 < index ∧ r ∈ c.settings path index := by
    cases index with
    | zero => simp [approach, htravel]
    | succ index => simp [approach, hfollow]
  simp only [requests, List.mem_append, List.mem_singleton, houtput, htravel, or_false, false_or,
    List.mem_flatMap, Prod.exists, List.mk_mem_zipIdx_iff_getElem?, happroach]
  constructor
  · rintro ⟨frame, index, hframe, hpos, hmem⟩
    exact ⟨index, hpos, (List.getElem?_eq_some_iff.mp hframe).1, hmem⟩
  · rintro ⟨index, hpos, hlt, hmem⟩
    exact ⟨frames[index], index, List.getElem?_eq_getElem hlt, hpos, hmem⟩

/-- A variable is assigned at the later waypoints at which its profile has a value. -/
theorem assign_mem_requests_iff {frames : List Frame} {index : Nat} {name : String}
    {value : ProcessValue} :
    .assign index name value ∈ c.requests path frames ↔
      0 < index ∧ index < frames.length ∧
        ∃ profile, path.profiles.find? name = some profile ∧ profile.get? index = some value := by
  have hsetting : (Request.assign index name value).isSetting = true := rfl
  simp only [c.mem_requests_iff path hsetting, assign_mem_settings_iff]
  constructor
  · rintro ⟨_, hpos, hlt, rfl, hprofile⟩
    exact ⟨hpos, hlt, hprofile⟩
  · rintro ⟨hpos, hlt, hprofile⟩
    exact ⟨index, hpos, hlt, rfl, hprofile⟩

/-- The path speed is set at the later waypoints at which its profile has a value. -/
theorem pathSpeed_mem_requests_iff {frames : List Frame} {index : Nat} {value : ProcessValue} :
    .pathSpeed index value ∈ c.requests path frames ↔
      0 < index ∧ index < frames.length ∧ path.speed.bind (·.get? index) = some value := by
  have hsetting : (Request.pathSpeed index value).isSetting = true := rfl
  simp only [c.mem_requests_iff path hsetting, pathSpeed_mem_settings_iff]
  constructor
  · rintro ⟨_, hpos, hlt, rfl, hvalue⟩
    exact ⟨hpos, hlt, hvalue⟩
  · rintro ⟨hpos, hlt, hvalue⟩
    exact ⟨index, hpos, hlt, rfl, hvalue⟩

end Compiler

end RobotPath
