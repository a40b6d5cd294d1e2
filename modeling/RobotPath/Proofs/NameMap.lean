import RobotPath.NameMap

/-!
# Maps by what they hold

A map has one entry for a name, and its entries have one order. So two maps that
hold the same are the same map, and whatever is computed from the entries is a
function of the lookups alone.
-/

namespace RobotPath.NameMap

variable {α β : Type}

theorem mem_entries_iff {m : NameMap α} {name : String} {value : α} :
    (name, value) ∈ m.entries ↔ m.find? name = some value := by
  obtain ⟨entries, hsorted⟩ := m
  change (name, value) ∈ entries ↔ entries.lookup name = some value
  induction entries with
  | nil => simp
  | cons entry rest ih =>
      obtain ⟨key, found⟩ := entry
      rw [List.map_cons, List.pairwise_cons] at hsorted
      rw [List.mem_cons, Prod.mk.injEq, lookup_entry_cons, ih hsorted.2]
      split
      next heq =>
        subst heq
        -- Later names are greater, so this one is not among them.
        have habsent : rest.lookup name ≠ some value := by
          intro hfound
          have hmem := (ih hsorted.2).mpr hfound
          exact String.lt_irrefl name (hsorted.1 name (List.mem_map_of_mem hmem))
        simp [habsent, eq_comm]
      next hne => simp [hne]

theorem pairwise_entries (m : NameMap α) : m.entries.Pairwise fun a b => a.1 < b.1 :=
  List.pairwise_map.mp m.sorted

theorem nodup_entries (m : NameMap α) : m.entries.Nodup := by
  apply m.pairwise_entries.imp
  intro a b hlt heq
  exact String.lt_irrefl a.1 (heq ▸ hlt)

/-- Maps with the same lookups have the same entries. -/
@[ext]
theorem ext {m m' : NameMap α} (h : ∀ name, m.find? name = m'.find? name) : m = m' := by
  have hentries : m.entries = m'.entries := by
    have hperm : m.entries.Perm m'.entries := by
      rw [List.perm_ext_iff_of_nodup m.nodup_entries m'.nodup_entries]
      rintro ⟨name, value⟩
      rw [mem_entries_iff, mem_entries_iff, h]
    refine hperm.eq_of_pairwise ?_ m.pairwise_entries m'.pairwise_entries
    intro a b _ _ hlt hgt
    exact absurd hgt (String.lt_asymm hlt)
  cases m
  cases m'
  cases hentries
  rfl

/-- The map of the values that `f` gives for those of a map; names without one are
left out. -/
def filterMap (f : α → Option β) (m : NameMap α) : NameMap β where
  entries := m.entries.filterMap fun (name, value) => (f value).map (name, ·)
  sorted := by
    rw [List.pairwise_map, List.pairwise_filterMap]
    refine m.pairwise_entries.imp ?_
    intro a b hlt a' ha b' hb
    obtain ⟨_, -, rfl⟩ := Option.map_eq_some_iff.mp ha
    obtain ⟨_, -, rfl⟩ := Option.map_eq_some_iff.mp hb
    exact hlt

theorem find?_filterMap (f : α → Option β) (m : NameMap α) (name : String) :
    (m.filterMap f).find? name = (m.find? name).bind f := by
  apply Option.ext
  intro value
  rw [← mem_entries_iff, filterMap, List.mem_filterMap, Option.bind_eq_some_iff]
  constructor
  · rintro ⟨⟨key, found⟩, hmem, hvalue⟩
    obtain ⟨_, hf, heq⟩ := Option.map_eq_some_iff.mp hvalue
    cases heq
    exact ⟨found, mem_entries_iff.mp hmem, hf⟩
  · rintro ⟨found, hfound, hf⟩
    exact ⟨(name, found), mem_entries_iff.mpr hfound, by simp only [hf, Option.map_some]⟩

/-- The map without the entry of a name, if it has one. -/
def erase (m : NameMap α) (name : String) : NameMap α where
  entries := m.entries.filter fun entry => entry.1 ≠ name
  sorted := by
    rw [List.pairwise_map]
    exact m.pairwise_entries.filter _

theorem find?_erase (m : NameMap α) (name key : String) :
    (m.erase name).find? key = if key = name then none else m.find? key := by
  apply Option.ext
  intro value
  rw [← mem_entries_iff, erase, List.mem_filter, mem_entries_iff]
  by_cases h : key = name <;> simp [h]

/-- Changing the values of a map and leaving out a name can be done in any order. -/
theorem filterMap_erase (f : α → Option β) (m : NameMap α) (name : String) :
    (m.erase name).filterMap f = (m.filterMap f).erase name := by
  ext1 key
  rw [find?_filterMap, find?_erase, find?_erase, find?_filterMap]
  split <;> rfl

end RobotPath.NameMap
