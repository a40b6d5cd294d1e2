import RobotPath.ProcessValue.Basic

/-!
# Profiles

The values of one quantity along a path, by waypoint index. A profile may have
gaps and may end before the path does; both mean that the waypoint says nothing.
-/

namespace RobotPath

/-- The value at each index, or a gap. -/
structure Profile where
  values : List (Option ProcessValue)
deriving Repr, DecidableEq, Inhabited

namespace Profile

def empty : Profile := ⟨[]⟩

/-- Profiles are equal when they have the same length, the same gaps and equal
values; trailing gaps count. -/
instance : BEq Profile := ⟨fun a b => a.values == b.values⟩

/-- A value at every index. -/
def ofList (values : List ProcessValue) : Profile := ⟨values.map some⟩

/-- How many indices the profile covers, gaps included. -/
def length (s : Profile) : Nat := s.values.length

/-- The value at an index, unless it is a gap or past the end. -/
def get? (s : Profile) (index : Nat) : Option ProcessValue := s.values[index]?.join

/-- Sets one value. A profile that is too short grows by gaps. -/
def set (s : Profile) (index : Nat) (value : ProcessValue) : Profile :=
  if index < s.length then ⟨s.values.set index (some value)⟩
  else ⟨s.values ++ List.replicate (index - s.length) none ++ [some value]⟩

/-- The profile with values at the given indices alone. Of two at one index the
later wins. -/
def sparse (entries : List (Nat × ProcessValue)) : Profile :=
  entries.foldl (fun s entry => s.set entry.1 entry.2) empty

theorem length_set (s : Profile) (index : Nat) (value : ProcessValue) :
    (s.set index value).length = max s.length (index + 1) := by
  unfold set
  split
  next h => simp only [length, List.length_set] at h ⊢; omega
  next h =>
    simp only [length, List.length_append, List.length_replicate, List.length_singleton] at h ⊢
    omega

/-- Only the index that was set reads differently afterwards. -/
theorem get?_set (s : Profile) (index i : Nat) (value : ProcessValue) :
    (s.set index value).get? i = if i = index then some value else s.get? i := by
  unfold set
  split
  next h =>
    simp only [get?, List.getElem?_set, length] at h ⊢
    by_cases hi : i = index
    · simp [hi, h]
    · simp [hi, Ne.symm hi]
  next h =>
    simp only [get?, length] at h ⊢
    by_cases hi : i = index
    · subst hi
      have hlen : (s.values ++ List.replicate (i - s.values.length) none).length = i := by
        simp only [List.length_append, List.length_replicate]; omega
      rw [if_pos rfl, List.getElem?_append_right (by omega), hlen, Nat.sub_self]
      rfl
    · rw [if_neg hi, List.append_assoc]
      by_cases hs : i < s.values.length
      · rw [List.getElem?_append_left hs]
      · rw [List.getElem?_append_right (by omega),
          List.getElem?_eq_none (by omega : s.values.length ≤ i)]
        by_cases hr : i - s.values.length < index - s.values.length
        · rw [List.getElem?_append_left (by simpa using hr)]
          simp [hr]
        · rw [List.getElem?_append_right (by simpa using hr)]
          have hpos : i - s.values.length - (index - s.values.length) ≠ 0 := by omega
          simp [hpos]

end Profile

end RobotPath
