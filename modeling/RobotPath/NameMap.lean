/-!
# Maps keyed by name

A map is a list of entries in strictly increasing order of their names, so a map
has one spelling and iterating over it needs no further order. Names compare by
code point, which is also the order of their UTF-8 bytes.
-/

namespace RobotPath

/-- A finite map from names, as its entries in the order of the names. -/
structure NameMap (α : Type) where
  entries : List (String × α)
  sorted : (entries.map Prod.fst).Pairwise (· < ·)

namespace NameMap

variable {α : Type}

def empty : NameMap α :=
  ⟨[], List.Pairwise.nil⟩

instance : EmptyCollection (NameMap α) := ⟨empty⟩

instance : Inhabited (NameMap α) := ⟨empty⟩

/-- Maps are compared entry by entry. -/
instance [BEq α] : BEq (NameMap α) := ⟨fun a b => a.entries == b.entries⟩

def names (m : NameMap α) : List String :=
  m.entries.map Prod.fst

def find? (m : NameMap α) (name : String) : Option α :=
  m.entries.lookup name

/-- Puts an entry in its place, instead of the one of that name if there is one. -/
def insertEntry (name : String) (value : α) : List (String × α) → List (String × α)
  | [] => [(name, value)]
  | (key, old) :: rest =>
      if name = key then (name, value) :: rest
      else if name < key then (name, value) :: (key, old) :: rest
      else (key, old) :: insertEntry name value rest

theorem mem_names_insertEntry {name key : String} {value : α} {entries : List (String × α)}
    (h : key ∈ (insertEntry name value entries).map Prod.fst) :
    key = name ∨ key ∈ entries.map Prod.fst := by
  induction entries with
  | nil => simpa [insertEntry] using h
  | cons entry rest ih =>
      unfold insertEntry at h
      split at h
      next heq => simpa [heq] using h
      next =>
        split at h
        next => simpa using h
        next =>
          rw [List.map_cons, List.mem_cons] at h
          rw [List.map_cons, List.mem_cons]
          cases h with
          | inl hkey => exact .inr (.inl hkey)
          | inr hrest =>
              cases ih hrest with
              | inl hname => exact .inl hname
              | inr hmem => exact .inr (.inr hmem)

/-- Inserting keeps the order: the new name lands before the first greater one. -/
theorem pairwise_names_insertEntry (name : String) (value : α) {entries : List (String × α)}
    (h : (entries.map Prod.fst).Pairwise (· < ·)) :
    ((insertEntry name value entries).map Prod.fst).Pairwise (· < ·) := by
  induction entries with
  | nil => exact List.pairwise_singleton _ _
  | cons entry rest ih =>
      rw [List.map_cons, List.pairwise_cons] at h
      unfold insertEntry
      split
      next heq => exact List.pairwise_cons.mpr ⟨heq ▸ h.1, h.2⟩
      next hne =>
        split
        next hlt =>
          refine List.pairwise_cons.mpr ⟨?_, List.pairwise_cons.mpr h⟩
          intro key hkey
          rw [List.map_cons, List.mem_cons] at hkey
          cases hkey with
          | inl heq => exact heq ▸ hlt
          | inr hmem => exact String.lt_trans hlt (h.1 key hmem)
        next hnlt =>
          refine List.pairwise_cons.mpr ⟨?_, ih h.2⟩
          intro key hkey
          cases mem_names_insertEntry hkey with
          | inl heq =>
              have hle : entry.1 ≤ name := String.not_lt.mp hnlt
              rw [heq]
              exact Std.lt_of_le_of_ne hle (Ne.symm hne)
          | inr hmem => exact h.1 key hmem

/-- Gives a name a value; an earlier one is forgotten. -/
def insert (m : NameMap α) (name : String) (value : α) : NameMap α :=
  ⟨insertEntry name value m.entries, pairwise_names_insertEntry name value m.sorted⟩

/-- The map of some entries in any order. Of two with one name the later wins. -/
def ofList (entries : List (String × α)) : NameMap α :=
  entries.foldl (fun m entry => m.insert entry.1 entry.2) empty

theorem lookup_entry_cons (key name : String) (value : α) (rest : List (String × α)) :
    ((name, value) :: rest).lookup key = if key = name then some value else rest.lookup key := by
  rw [List.lookup_cons]
  by_cases h : key = name
  · rw [if_pos h, beq_iff_eq.mpr h]
  · rw [if_neg h, beq_eq_false_iff_ne.mpr h]

theorem lookup_insertEntry (name key : String) (value : α) (entries : List (String × α)) :
    (insertEntry name value entries).lookup key =
      if key = name then some value else entries.lookup key := by
  induction entries with
  | nil => exact lookup_entry_cons key name value []
  | cons entry rest ih =>
      obtain ⟨found, old⟩ := entry
      unfold insertEntry
      split
      next heq =>
        subst heq
        rw [lookup_entry_cons, lookup_entry_cons]
        split <;> rfl
      next hne =>
        split
        next => rw [lookup_entry_cons]
        next =>
          rw [lookup_entry_cons, lookup_entry_cons, ih]
          by_cases hkey : key = found
          · have hname : key ≠ name := fun h => hne (h.symm.trans hkey)
            rw [if_pos hkey, if_neg hname, if_pos hkey]
          · rw [if_neg hkey, if_neg hkey]

/-- Only the inserted name reads differently afterwards. -/
theorem find?_insert (m : NameMap α) (name key : String) (value : α) :
    (m.insert name value).find? key = if key = name then some value else m.find? key :=
  lookup_insertEntry name key value m.entries

@[simp]
theorem find?_empty (name : String) : (empty : NameMap α).find? name = none := rfl

end NameMap

end RobotPath
