import Mathlib.Data.List.Induction
import RobotPath.Proofs.Bytes
import RobotPath.Proofs.Compiler.Order
import RobotPath.Proofs.Latest

/-!
# The sequence of variables

The variables of a path are assigned in the one sequence that has each of them once, those
with a priority first, as they are first listed, and then the others by the bytes of their
names. It can be gathered in two passes, over the priority list and over the variables,
that each leave out what is there already. What the profiles hold does not matter to it,
nor in which order the variables were added to the path.
-/

namespace RobotPath

/-- Which of two variables is assigned first. -/
inductive Precedes (priority : List String) : String → String → Prop where
  | listed {name other} (hname : name ∈ priority) (hother : other ∈ priority)
      (h : priority.idxOf name < priority.idxOf other) : Precedes priority name other
  | listedFirst {name other} (hname : name ∈ priority) (hother : other ∉ priority) :
      Precedes priority name other
  | unlisted {name other} (hname : name ∉ priority) (hother : other ∉ priority)
      (h : name.toUTF8.data.toList < other.toUTF8.data.toList) : Precedes priority name other

namespace Precedes

variable {priority : List String} {name other : String}

theorem asymm (h : Precedes priority name other) : ¬ Precedes priority other name := by
  intro h'
  cases h with
  | listed hname hother hlt =>
      cases h' with
      | listed _ _ hgt => exact Nat.lt_asymm hlt hgt
      | listedFirst _ hname' => exact hname' hname
      | unlisted hother' _ _ => exact hother' hother
  | listedFirst hname hother =>
      cases h' with
      | listed hother' _ _ => exact hother hother'
      | listedFirst hother' _ => exact hother hother'
      | unlisted _ hname' _ => exact hname' hname
  | unlisted hname hother hlt =>
      cases h' with
      | listed _ hname' _ => exact hname hname'
      | listedFirst hother' _ => exact hother hother'
      | unlisted _ _ hgt => exact List.lt_asymm hlt hgt

/-- Two sequences of the same things are the same. -/
theorem eq_of_pairwise {β : Type} (key : β → String) {items items' : List β}
    (h : items.Pairwise fun a b => Precedes priority (key a) (key b))
    (h' : items'.Pairwise fun a b => Precedes priority (key a) (key b))
    (hmem : ∀ b, b ∈ items ↔ b ∈ items') : items = items' := by
  have hnodup {items : List β} (h : items.Pairwise fun a b => Precedes priority (key a) (key b)) :
      items.Nodup := by
    apply h.imp
    rintro a _ hlt rfl
    exact hlt.asymm hlt
  have hperm : items.Perm items' :=
    (List.perm_ext_iff_of_nodup (hnodup h) (hnodup h')).mpr hmem
  apply hperm.eq_of_pairwise _ h h'
  intro a b _ _ hlt hgt
  exact absurd hgt hlt.asymm

end Precedes

/-- A sequence of the entries of a map, each of them once. -/
structure Enumerates {α : Type} (priority : List String) (m : NameMap α)
    (entries : List (String × α)) : Prop where
  nodup : (entries.map Prod.fst).Nodup
  mem_iff : ∀ name value, (name, value) ∈ entries ↔ m.find? name = some value
  pairwise : entries.Pairwise fun a b => Precedes priority a.1 b.1

theorem eraseDups_concat (names : List String) (name : String) :
    (names ++ [name]).eraseDups =
      if name ∈ names then names.eraseDups else names.eraseDups ++ [name] := by
  rw [List.eraseDups_append]
  by_cases h : name ∈ names
  · simp [h, List.removeAll]
  · simp [h, List.removeAll, List.eraseDups_cons]

/-- Without repetitions, names stand in the order of their first occurrences. -/
theorem pairwise_eraseDups (names : List String) :
    names.eraseDups.Pairwise fun a b => names.idxOf a < names.idxOf b := by
  induction names using List.reverseRecOn with
  | nil => exact .nil
  | append_singleton names name ih =>
      have hkept : names.eraseDups.Pairwise fun a b =>
          (names ++ [name]).idxOf a < (names ++ [name]).idxOf b := by
        apply ih.imp_of_mem
        intro a b ha hb hlt
        rw [List.mem_eraseDups] at ha hb
        rwa [List.idxOf_append_of_mem ha, List.idxOf_append_of_mem hb]
      rw [eraseDups_concat]
      split
      next hmem => exact hkept
      next hmem =>
        apply List.pairwise_append.mpr
        refine ⟨hkept, List.pairwise_singleton _ _, ?_⟩
        intro a ha b hb
        rw [List.mem_eraseDups] at ha
        rw [List.mem_singleton.mp hb, List.idxOf_append_of_mem ha, List.idxOf_append, if_neg hmem]
        exact Nat.lt_of_lt_of_le (List.idxOf_lt_length_of_mem ha) (Nat.le_add_left _ _)

namespace Config

variable {α β : Type}

theorem pairwise_ordered (c : Config) (m : NameMap α) :
    (c.ordered m).Pairwise fun a b => Precedes c.variablePriority a.1 b.1 := by
  unfold ordered
  apply List.pairwise_append.mpr
  refine ⟨?_, ?_, ?_⟩
  · rw [List.pairwise_filterMap]
    apply (pairwise_eraseDups c.variablePriority).imp_of_mem
    intro name other hname hother hlt entry hentry entry' hentry'
    obtain ⟨_, -, rfl⟩ := Option.map_eq_some_iff.mp hentry
    obtain ⟨_, -, rfl⟩ := Option.map_eq_some_iff.mp hentry'
    exact .listed (List.mem_eraseDups.mp hname) (List.mem_eraseDups.mp hother) hlt
  · apply (m.pairwise_entries.filter _).imp_of_mem
    intro a b ha hb hlt
    exact .unlisted (name_notMem_of_unlisted ha) (name_notMem_of_unlisted hb)
      (lt_iff_toUTF8_lt.mp hlt)
  · intro a ha b hb
    exact .listedFirst (name_mem_of_listed ha) (name_notMem_of_unlisted hb)

theorem enumerates_iff {c : Config} {m : NameMap α} {entries : List (String × α)} :
    Enumerates c.variablePriority m entries ↔ entries = c.ordered m := by
  constructor
  · intro h
    apply Precedes.eq_of_pairwise Prod.fst h.pairwise (c.pairwise_ordered m)
    rintro ⟨name, value⟩
    rw [h.mem_iff, mem_ordered_iff]
  · rintro rfl
    refine ⟨c.nodup_names_ordered m, ?_, c.pairwise_ordered m⟩
    intro name value
    exact c.mem_ordered_iff

/-- The names of the sequence depend on the names of the map alone. -/
theorem names_ordered_eq (c : Config) {m : NameMap α} {m' : NameMap β}
    (h : ∀ name, (m.find? name).isSome = (m'.find? name).isSome) :
    (c.ordered m).map Prod.fst = (c.ordered m').map Prod.fst := by
  have hmem {γ : Type} (m : NameMap γ) (name : String) :
      name ∈ (c.ordered m).map Prod.fst ↔ (m.find? name).isSome := by
    simp [Option.isSome_iff_exists, mem_ordered_iff]
  apply Precedes.eq_of_pairwise id (List.pairwise_map.mpr (c.pairwise_ordered m))
    (List.pairwise_map.mpr (c.pairwise_ordered m'))
  intro name
  rw [hmem, hmem, h]

/-- Adds an entry at the end, unless there is one of its name. -/
def gather (found : List (String × α)) (entry : String × α) : List (String × α) :=
  if entry.1 ∈ found.map Prod.fst then found else found ++ [entry]

/-- The sequence as it is gathered: what is listed, name by name, and then what there is. -/
def gathered (c : Config) (m : NameMap α) : List (String × α) :=
  let listed := c.variablePriority.filterMap fun name => (m.find? name).map (name, ·)
  m.entries.foldl gather (listed.foldl gather [])

/-- The first pass keeps the first occurrence of each name that the map has. -/
theorem foldl_gather_listed (m : NameMap α) (names : List String) :
    (names.filterMap fun name => (m.find? name).map (name, ·)).foldl gather [] =
      names.eraseDups.filterMap fun name => (m.find? name).map (name, ·) := by
  induction names using List.reverseRecOn with
  | nil => rfl
  | append_singleton names name ih =>
      rw [List.filterMap_append, List.foldl_append, ih, eraseDups_concat]
      cases hfound : m.find? name with
      | none =>
          split
          next => simp [hfound]
          next => simp [hfound]
      | some value =>
          have hmem : name ∈ (names.eraseDups.filterMap fun name =>
              (m.find? name).map (name, ·)).map Prod.fst ↔ name ∈ names := by
            simp [hfound]
          simp only [List.filterMap_cons, List.filterMap_nil, hfound, Option.map_some,
            List.foldl_cons, List.foldl_nil]
          rw [gather, if_congr hmem rfl rfl]
          split
          next => rfl
          next => simp [hfound]

/-- The second pass adds the entries of other names. -/
theorem foldl_gather_entries {entries : List (String × α)} (h : (entries.map Prod.fst).Nodup)
    (found : List (String × α)) :
    entries.foldl gather found =
      found ++ entries.filter fun entry => entry.1 ∉ found.map Prod.fst := by
  induction entries generalizing found with
  | nil => simp
  | cons entry rest ih =>
      rw [List.map_cons, List.nodup_cons] at h
      rw [List.foldl_cons, ih h.2, gather]
      split
      next hmem => rw [List.filter_cons_of_neg (by simpa using hmem)]
      next hmem =>
        rw [List.filter_cons_of_pos (by simpa using hmem), List.append_assoc, List.singleton_append]
        congr 2
        apply List.filter_congr
        intro other hother
        have hne : other.1 ≠ entry.1 := fun heq => h.1 (heq ▸ List.mem_map_of_mem hother)
        simp [hne]

theorem ordered_eq_gathered (c : Config) (m : NameMap α) : c.ordered m = c.gathered m := by
  unfold ordered gathered
  dsimp only
  rw [foldl_gather_listed, foldl_gather_entries (m.sorted.imp Std.ne_of_lt)]
  congr 1
  apply List.filter_congr
  rintro ⟨name, value⟩ hentry
  have hfound : m.find? name = some value := NameMap.mem_entries_iff.mp hentry
  simp [hfound]

end Config

/-- Of several entries with one name, a map holds the one that was inserted last. -/
theorem NameMap.find?_foldl_insert {α : Type} (m : NameMap α) (entries : List (String × α))
    (name : String) :
    (entries.foldl (fun m entry => m.insert entry.1 entry.2) m).find? name =
      (latest? entries name).or (m.find? name) := by
  apply read_foldl_write
  intro m name other value
  exact m.find?_insert name other value

namespace Toolpath

/-- The path with more variables, added one after another. -/
def withVariables (path : Toolpath) (added : List (String × Profile)) : Toolpath :=
  added.foldl (fun path entry => path.withVariable entry.1 entry.2) path

theorem profiles_withVariables (path : Toolpath) (added : List (String × Profile)) :
    (path.withVariables added).profiles =
      added.foldl (fun m entry => m.insert entry.1 entry.2) path.profiles := by
  induction added generalizing path with
  | nil => rfl
  | cons entry rest ih => exact ih (path.withVariable entry.1 entry.2)

end Toolpath

/-- The order of assignment is the one sequence that has each variable once, with its own
profile: those with a priority first, as they are first listed, and then the others by the
bytes of their names. Which names it has and in which order is told by the names alone,
whatever the profiles are. In which order variables are added to a path does not matter;
of several with one name, the one that was added last counts. -/
theorem Config.ordered_enumerates {α β : Type} (c : Config) :
    (∀ (m : NameMap α) entries,
      Enumerates c.variablePriority m entries ↔ entries = c.ordered m) ∧
      (∀ (m : NameMap α) (m' : NameMap β),
        (∀ name, (m.find? name).isSome = (m'.find? name).isSome) →
          (c.ordered m).map Prod.fst = (c.ordered m').map Prod.fst) ∧
      ∀ (path : Toolpath) (added added' : List (String × Profile)),
        (∀ name, (path.withVariables added).profiles.find? name =
          (latest? added name).or (path.profiles.find? name)) ∧
        ((∀ name, latest? added name = latest? added' name) →
          c.ordered (path.withVariables added).profiles =
            c.ordered (path.withVariables added').profiles) := by
  refine ⟨fun m entries => enumerates_iff, fun m m' h => c.names_ordered_eq h, ?_⟩
  intro path added added'
  rw [path.profiles_withVariables, path.profiles_withVariables]
  refine ⟨path.profiles.find?_foldl_insert added, ?_⟩
  intro h
  congr 1
  ext1 name
  rw [NameMap.find?_foldl_insert, NameMap.find?_foldl_insert, h]

example : { Config.standard with variablePriority := ["é", "C", "é"] }.ordered
    (NameMap.ofList [("é", 1), ("B", 2), ("A", 3)]) = [("é", 1), ("A", 3), ("B", 2)] := by
  decide +kernel

/-- Three variables, one of them added twice. -/
def addedTwice : List (String × Profile) :=
  [("B", .empty), ("é", .empty), ("A", .empty), ("B", .ofList [.integer 1])]

/-- The same variables in another order, each added once. -/
def addedOnce : List (String × Profile) :=
  [("A", .empty), ("B", .ofList [.integer 1]), ("é", .empty)]

/-- A map with the same names. -/
def numbered : NameMap Nat := .ofList [("é", 1), ("B", 2), ("A", 3)]

theorem Config.ordered_enumerates_addedTwice :
    let c : Config := { Config.standard with variablePriority := ["é", "C", "é"] }
    let path := (Toolpath.ofWaypoints []).withVariables addedTwice
    let path' := (Toolpath.ofWaypoints []).withVariables addedOnce
    ((∀ name, latest? addedTwice name = latest? addedOnce name) ∧
        c.ordered path.profiles = c.ordered path'.profiles) ∧
      (∀ name, (path.profiles.find? name).isSome = (numbered.find? name).isSome) ∧
        (c.ordered path.profiles).map Prod.fst = (c.ordered numbered).map Prod.fst := by
  intro c path path'
  obtain ⟨-, hnames, hadded⟩ := @Config.ordered_enumerates Profile Nat c
  obtain ⟨hfind, hequal⟩ := hadded (Toolpath.ofWaypoints []) addedTwice addedOnce
  have hlatest : ∀ name, latest? addedTwice name = latest? addedOnce name := by
    intro name
    simp only [addedTwice, addedOnce, latest?_cons]
    by_cases hA : name = "A" <;> by_cases hB : name = "B" <;> by_cases hé : name = "é" <;>
      simp_all
  have hsome : ∀ name, (path.profiles.find? name).isSome = (numbered.find? name).isSome := by
    intro name
    have hnone : (Toolpath.ofWaypoints []).profiles.find? name = none := rfl
    rw [hfind, hnone, Option.or_none, hlatest, numbered, NameMap.ofList,
      NameMap.find?_foldl_insert, NameMap.find?_empty, Option.or_none, Bool.eq_iff_iff,
      isSome_latest?_iff, isSome_latest?_iff]
    simp [addedOnce, or_comm, or_left_comm]
  exact ⟨⟨hlatest, hequal hlatest⟩, hsome, hnames _ _ hsome⟩

end RobotPath
