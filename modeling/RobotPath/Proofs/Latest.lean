/-!
# The last of several entries

Entries that are written one after another, each in the place of an earlier one with
its key, leave the last one for every key. That holds of whatever they are written to,
if one write changes what is read for its own key alone.
-/

namespace RobotPath

variable {κ ν σ : Type} [DecidableEq κ]

/-- The value of the last entry with a key. Entries with other keys do not count. -/
def latest? (entries : List (κ × ν)) (key : κ) : Option ν :=
  (entries.filter fun entry => entry.1 = key).getLast?.map Prod.snd

theorem latest?_cons (entry : κ × ν) (rest : List (κ × ν)) (key : κ) :
    latest? (entry :: rest) key =
      (latest? rest key).or (if key = entry.1 then some entry.2 else none) := by
  by_cases h : entry.1 = key
  · rw [if_pos h.symm, latest?, List.filter_cons_of_pos (by simpa using h), List.getLast?_cons,
      latest?]
    cases (rest.filter fun entry => entry.1 = key).getLast? <;> rfl
  · rw [if_neg (Ne.symm h), latest?, List.filter_cons_of_neg (by simpa using h), Option.or_none,
      latest?]

theorem isSome_latest?_iff {entries : List (κ × ν)} {key : κ} :
    (latest? entries key).isSome ↔ key ∈ entries.map Prod.fst := by
  induction entries with
  | nil => simp [latest?]
  | cons entry rest ih =>
      rw [latest?_cons, Option.isSome_or, Bool.or_eq_true, ih, List.map_cons, List.mem_cons,
        or_comm]
      by_cases h : key = entry.1 <;> simp [h]

/-- If one write is read back under its key and changes nothing else, then after all of
them the last entry of a key is read, and without one what was there before. -/
theorem read_foldl_write {read : σ → κ → Option ν} {write : σ → κ → ν → σ}
    (hwrite : ∀ state key other value,
      read (write state key value) other = if other = key then some value else read state other)
    (entries : List (κ × ν)) (state : σ) (key : κ) :
    read (entries.foldl (fun state entry => write state entry.1 entry.2) state) key =
      (latest? entries key).or (read state key) := by
  induction entries generalizing state with
  | nil => rfl
  | cons entry rest ih =>
      rw [List.foldl_cons, ih, hwrite, latest?_cons, Option.or_assoc]
      split <;> rfl

end RobotPath
