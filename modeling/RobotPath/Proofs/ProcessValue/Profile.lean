import RobotPath.ProcessValue.Profile
import RobotPath.Proofs.Latest

/-!
# Profiles as maps

A profile reads like a map from indices: whatever is set in it, and in which order, each
index has the value that was set there last. It reaches as far as it did before or to the
largest index that was set. A sparse profile has no gap at its end, so what it reads says
what it is.
-/

namespace RobotPath.Profile

/-- Sets values one after another. -/
def setAll (s : Profile) (entries : List (Nat × ProcessValue)) : Profile :=
  entries.foldl (fun s entry => s.set entry.1 entry.2) s

/-- To set a value is to grow by gaps as far as its index, if need be, and to write it there. -/
theorem set_eq_grown (s : Profile) (index : Nat) (value : ProcessValue) :
    s.set index value =
      ⟨(s.values ++ List.replicate (index + 1 - s.length) none).set index (some value)⟩ := by
  unfold set
  split
  next h =>
    rw [Nat.sub_eq_zero_of_le h, List.replicate_zero, List.append_nil]
  next h =>
    have hgrown : (s.values ++ List.replicate (index - s.length) none).length = index := by
      rw [List.length_append, List.length_replicate]
      exact Nat.add_sub_of_le (Nat.le_of_not_lt h)
    rw [Nat.succ_sub (Nat.le_of_not_lt h), List.replicate_succ', ← List.append_assoc,
      List.set_append_right _ _ (Nat.le_of_eq hgrown), hgrown, Nat.sub_self]
    rfl

theorem get?_setAll (s : Profile) (entries : List (Nat × ProcessValue)) (i : Nat) :
    (s.setAll entries).get? i = (latest? entries i).or (s.get? i) := by
  apply read_foldl_write
  intro s index other value
  exact s.get?_set index other value

/-- A profile reaches as far as it has to. -/
theorem length_setAll_le_iff {s : Profile} {entries : List (Nat × ProcessValue)} {n : Nat} :
    (s.setAll entries).length ≤ n ↔ s.length ≤ n ∧ ∀ index ∈ entries.map Prod.fst, index < n := by
  induction entries generalizing s with
  | nil => simp [setAll]
  | cons entry rest ih =>
      change ((s.set entry.1 entry.2).setAll rest).length ≤ n ↔ _
      rw [ih, length_set, List.map_cons, List.forall_mem_cons, Nat.max_le, Nat.succ_le_iff,
        and_assoc]

theorem length_setAll (s : Profile) (entries : List (Nat × ProcessValue)) :
    (s.setAll entries).length =
      (entries.map Prod.fst).max?.elim s.length fun largest => max s.length (largest + 1) := by
  cases hlargest : (entries.map Prod.fst).max? with
  | none =>
      rw [List.max?_eq_none_iff, List.map_eq_nil_iff] at hlargest
      rw [hlargest]
      rfl
  | some largest =>
      obtain ⟨hmem, hle⟩ := List.max?_eq_some_iff.mp hlargest
      apply Nat.le_antisymm
      · rw [length_setAll_le_iff]
        refine ⟨Nat.le_max_left _ _, ?_⟩
        intro index hindex
        have hbound : index ≤ largest := hle index hindex
        rw [Option.elim_some]
        omega
      · obtain ⟨hlength, hlast⟩ := length_setAll_le_iff.mp (Nat.le_refl (s.setAll entries).length)
        exact Nat.max_le.mpr ⟨hlength, hlast largest hmem⟩

/-- Profiles that reach equally far and read alike are equal. -/
theorem ext_get? {s t : Profile} (hlength : s.length = t.length)
    (hget : ∀ i, s.get? i = t.get? i) : s = t := by
  have hvalues : s.values = t.values := by
    apply List.ext_getElem hlength
    intro i hs ht
    have hi := hget i
    rwa [get?, get?, List.getElem?_eq_getElem hs, List.getElem?_eq_getElem ht, Option.join_some,
      Option.join_some] at hi
  cases s
  cases t
  cases hvalues
  rfl

theorem get?_sparse (entries : List (Nat × ProcessValue)) (i : Nat) :
    (sparse entries).get? i = latest? entries i := by
  have hget := get?_setAll empty entries i
  have hempty : empty.get? i = none := rfl
  rwa [hempty, Option.or_none] at hget

/-- The entries of a sparse profile that are read decide how far it reaches. -/
theorem length_sparse_le {entries entries' : List (Nat × ProcessValue)}
    (h : ∀ i, latest? entries i = latest? entries' i) :
    (sparse entries).length ≤ (sparse entries').length := by
  apply length_setAll_le_iff.mpr
  refine ⟨Nat.zero_le _, ?_⟩
  intro index hindex
  obtain ⟨-, hlast⟩ := length_setAll_le_iff.mp (Nat.le_refl (empty.setAll entries').length)
  apply hlast
  rw [← isSome_latest?_iff] at hindex ⊢
  rwa [← h]

theorem sparse_eq_iff {entries entries' : List (Nat × ProcessValue)} :
    sparse entries = sparse entries' ↔ ∀ i, latest? entries i = latest? entries' i := by
  constructor
  · intro heq i
    rw [← get?_sparse, ← get?_sparse, heq]
  · intro h
    apply ext_get?
    · exact Nat.le_antisymm (length_sparse_le h) (length_sparse_le fun i => (h i).symm)
    · intro i
      rw [get?_sparse, get?_sparse, h]

/-- However values are set in a profile, an index reads the value that was set there last,
and as before if none was; the profile then reaches as far as before, or just past the
largest index that was set if that is farther. So a sparse profile has at each index the
last entry for it, and two lists of entries make one profile exactly if they agree on the
last entry for each index, whatever the order of entries for different indices is. -/
theorem keeps_latest :
    (∀ (s : Profile) (entries : List (Nat × ProcessValue)),
      (∀ i, (s.setAll entries).get? i = (latest? entries i).or (s.get? i)) ∧
        (s.setAll entries).length =
          (entries.map Prod.fst).max?.elim s.length fun largest => max s.length (largest + 1)) ∧
      (∀ entries i, (sparse entries).get? i = latest? entries i) ∧
      ∀ entries entries', sparse entries = sparse entries' ↔
        ∀ i, latest? entries i = latest? entries' i := by
  refine ⟨?_, get?_sparse, ?_⟩
  · intro s entries
    exact ⟨s.get?_setAll entries, s.length_setAll entries⟩
  · intro entries entries'
    exact sparse_eq_iff

/-- Descending indices, one of them twice, and a value far from the others. -/
example : sparse [(3, .switch true), (1, .integer 4), (3, .decimal 0.5), (0, .integer 7)] =
    ⟨[some (.integer 7), some (.integer 4), none, some (.decimal 0.5)]⟩ := by
  decide

end RobotPath.Profile
