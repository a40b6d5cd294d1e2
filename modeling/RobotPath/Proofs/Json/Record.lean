import Mathlib.Data.List.Perm.Basic
import RobotPath.Json.Record

/-!
# What is stored is read back

Each reader of a value undoes the function that stores it, so a record is read back when
its fields are. A record that is written as an object has no order: what counts is which of
its fields are there, and objects may have other members in between.
-/

namespace RobotPath.Json

/-- Rewrites with what was read, so that no reader is evaluated. -/
theorem bind_of_eq_some {α β : Type} {read : Option α} {a : α} (h : read = some a)
    (f : α → Option β) : (read >>= f) = f a := by
  rw [h]
  rfl

section values

variable {α : Type} {encode : α → Json} {read? : Json → Option α}

theorem float?_ofFloat {x : Float} (h : x.isFinite = true) : float? (ofFloat x) = some x := by
  rw [ofFloat, if_pos h, float?, if_pos h]

theorem word?_ofWord (w : UInt32) : word? (ofWord w) = some w := by
  have hlt : (w.toNat : Int) < UInt32.size := by exact_mod_cast w.toNat_lt_size
  rw [ofWord, word?, if_pos ⟨Int.natCast_nonneg _, hlt⟩, Int.toNat_natCast, UInt32.ofNat_toNat]

theorem list?_map {items : List α} (h : ∀ a ∈ items, read? (encode a) = some a) :
    list? read? (.array (items.map encode)) = some items := by
  rw [list?]
  induction items with
  | nil => rfl
  | cons a rest ih =>
      rw [List.forall_mem_cons] at h
      rw [List.map_cons, List.mapM_cons, h.1, ih h.2]
      rfl

theorem floats?_map {n : Nat} (v : Vector Float n) (h : ∀ x ∈ v.toList, x.isFinite = true) :
    floats? n (.array (v.toList.map ofFloat)) = some v := by
  have hitems : list? float? (.array (v.toList.map ofFloat)) = some v.toList :=
    list?_map fun x hx => float?_ofFloat (h x hx)
  have harray : v.toList.toArray = v.toArray := v.toArray.toArray_toList
  rw [floats?, hitems]
  simp [harray]

/-- Null stands for none alone, as long as no value is stored as null. -/
theorem nullable?_ofOption (hnull : read? .null = none) {value : Option α}
    (h : ∀ a ∈ value, read? (encode a) = some a) :
    nullable? read? (ofOption encode value) = some value := by
  cases value with
  | none => rfl
  | some a =>
      have hread := h a rfl
      change nullable? read? (encode a) = _
      unfold nullable?
      split
      next heq =>
        rw [heq, hnull] at hread
        cases hread
      next => rw [hread]; rfl

end values

section records

variable {names : List String} {members known : List (String × Json)}

/-- An object is read as the members that are fields, in any order and whatever else it
holds. -/
theorem record?_record (h : (members.filter fun member => names.contains member.1) = known)
    (hnodup : (known.map Prod.fst).Nodup) : record? names (.record members) = some known := by
  have hnamed (held : List (String × Json)) :
      (held.map fun member => (some member.1, member.2)).mapM
        (fun member : Option String × Json => member.1.map (·, member.2)) = some held := by
    induction held with
    | nil => rfl
    | cons member rest ih => rw [List.map_cons, List.mapM_cons, ih]; rfl
  have hrecord : record? names (.record members) =
      (((members.map fun member => (some member.1, member.2)).mapM
          fun member : Option String × Json => member.1.map (·, member.2)).bind fun named =>
        let known := named.filter fun member => names.contains member.1
        if (known.map Prod.fst).Nodup then some known else none) := rfl
  rw [hrecord, hnamed, Option.bind_some, h, if_pos hnodup]

/-- An object with all fields and no others. -/
theorem record?_members (h : members.map Prod.fst = names) (hnodup : names.Nodup) :
    record? names (.record members) = some members := by
  refine record?_record (List.filter_eq_self.mpr fun member hmember => ?_) (h ▸ hnodup)
  rw [List.contains_iff_mem, ← h]
  exact List.mem_map_of_mem hmember

end records

namespace Record

variable {α : Type} {read? : Json → Option α} {r stored : Record} {name : String} {value : Json}
  {a : α}

theorem lookup_eq_some_of_mem (hnodup : (r.map Prod.fst).Nodup) (h : (name, value) ∈ r) :
    r.lookup name = some value := by
  obtain ⟨front, back, rfl⟩ := List.append_of_mem h
  rw [List.map_append, List.nodup_append] at hnodup
  refine List.lookup_eq_some_iff.mpr ⟨front, back, rfl, fun member hmember => ?_⟩
  have hne := hnodup.2.2 member.1 (List.mem_map_of_mem hmember) name List.mem_cons_self
  exact bne_iff_ne.mpr hne.symm

theorem required_eq_of_mem (hnodup : (r.map Prod.fst).Nodup) (h : (name, value) ∈ r) :
    r.required name read? = read? value := by
  rw [required, bind_of_eq_some (lookup_eq_some_of_mem hnodup h)]

theorem optional_eq_of_mem (hnodup : (r.map Prod.fst).Nodup) (h : (name, value) ∈ r)
    (absent : α) : r.optional name read? absent = read? value := by
  rw [optional, lookup_eq_some_of_mem hnodup h]

/-- What a field was read as is what its value is read as. -/
theorem of_required (hnodup : (r.map Prod.fst).Nodup) (hfield : r.required name read? = some a)
    (h : (name, value) ∈ r) : read? value = some a :=
  (required_eq_of_mem hnodup h).symm.trans hfield

theorem of_optional {absent : α} (hnodup : (r.map Prod.fst).Nodup)
    (hfield : r.optional name read? absent = some a) (h : (name, value) ∈ r) :
    read? value = some a :=
  (optional_eq_of_mem hnodup h absent).symm.trans hfield

theorem required_of_mem (hnodup : (r.map Prod.fst).Nodup) (h : (name, value) ∈ r)
    (hread : read? value = some a) : r.required name read? = some a :=
  (required_eq_of_mem hnodup h).trans hread

theorem optional_of_mem (hnodup : (r.map Prod.fst).Nodup) (h : (name, value) ∈ r)
    (hread : read? value = some a) (absent : α) : r.optional name read? absent = some a :=
  (optional_eq_of_mem hnodup h absent).trans hread

theorem nodup_of_perm {chosen : String → Bool}
    (hperm : r.Perm (stored.filter fun member => chosen member.1))
    (hnodup : (stored.map Prod.fst).Nodup) : (r.map Prod.fst).Nodup := by
  rw [(hperm.map Prod.fst).nodup_iff]
  exact hnodup.sublist (List.filter_sublist.map Prod.fst)

/-- What a record says of a field when it holds the chosen fields of another one. -/
theorem lookup_of_perm {chosen : String → Bool}
    (hperm : r.Perm (stored.filter fun member => chosen member.1))
    (hnodup : (stored.map Prod.fst).Nodup) (h : (name, value) ∈ stored) :
    r.lookup name = if chosen name then some value else none := by
  split
  next hchosen =>
    have hmem := hperm.mem_iff.mpr (List.mem_filter.mpr ⟨h, hchosen⟩)
    exact lookup_eq_some_of_mem (nodup_of_perm hperm hnodup) hmem
  next hleft =>
    refine List.lookup_eq_none_iff.mpr fun member hmember => ?_
    have hchosen := (List.mem_filter.mp (hperm.mem_iff.mp hmember)).2
    refine bne_iff_ne.mpr ?_
    rintro rfl
    exact hleft hchosen

/-- A field with a value of its own is read when it is among the chosen ones. -/
theorem optional_of_perm {chosen : String → Bool}
    (hperm : r.Perm (stored.filter fun member => chosen member.1))
    (hnodup : (stored.map Prod.fst).Nodup) (h : (name, value) ∈ stored)
    (hread : read? value = some a) (absent : α) :
    r.optional name read? absent = some (if chosen name then a else absent) := by
  rw [optional, lookup_of_perm hperm hnodup h]
  cases chosen name with
  | false => rfl
  | true => exact hread

end Record

end RobotPath.Json
