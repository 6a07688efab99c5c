/-!
# Maps in insertion order

A finite map that remembers the order in which its keys came.  Inserting a key that is already there
replaces its value and keeps its place; a new key goes to the end.  No key occurs twice, which is a
field of the type.
-/

namespace Accumulator

/-- A finite map whose keys are in the order of their first insertion. -/
structure OrderedMap (κ : Type) (α : Type) [DecidableEq κ] where
  /-- The entries in order. -/
  toList : List (κ × α)
  nodup : (toList.map Prod.fst).Nodup

namespace OrderedMap

variable {κ α : Type} [DecidableEq κ]

/-- The map without entries. -/
def empty : OrderedMap κ α where
  toList := []
  nodup := by simp

instance : Inhabited (OrderedMap κ α) := ⟨empty⟩

instance [DecidableEq α] : DecidableEq (OrderedMap κ α) := fun m n =>
  decidable_of_iff (m.toList = n.toList)
    ⟨fun h => by cases m; cases n; simpa using h, fun h => h ▸ rfl⟩

instance [Repr κ] [Repr α] : Repr (OrderedMap κ α) := ⟨fun m => reprPrec m.toList⟩

/-- The number of entries. -/
def size (m : OrderedMap κ α) : Nat := m.toList.length

/-- The keys in order. -/
def keys (m : OrderedMap κ α) : List κ := m.toList.map Prod.fst

/-- The value of a key. -/
def get? (m : OrderedMap κ α) (key : κ) : Option α :=
  (m.toList.find? fun entry => entry.1 = key).map Prod.snd

/-- Whether a key has a value. -/
def contains (m : OrderedMap κ α) (key : κ) : Bool :=
  m.keys.contains key

/-- The entries with the value of `key` replaced. -/
def replace (key : κ) (value : α) (entries : List (κ × α)) : List (κ × α) :=
  entries.map fun entry => if entry.1 = key then (key, value) else entry

theorem map_fst_replace (key : κ) (value : α) (entries : List (κ × α)) :
    (replace key value entries).map Prod.fst = entries.map Prod.fst := by
  induction entries with
  | nil => rfl
  | cons entry rest ih =>
    by_cases h : entry.1 = key
    · simpa [replace, h] using ih
    · simpa [replace, h] using ih

/-- The map with a value for a key: in the place of its old value, or at the end. -/
def insert (m : OrderedMap κ α) (key : κ) (value : α) : OrderedMap κ α :=
  if h : key ∈ m.keys then
    ⟨replace key value m.toList, by rw [map_fst_replace]; exact m.nodup⟩
  else
    ⟨m.toList ++ [(key, value)], by
      rw [List.map_append, List.nodup_append]
      refine ⟨m.nodup, by simp, ?_⟩
      intro a ha b hb hab
      simp only [List.map_cons, List.map_nil, List.mem_singleton] at hb
      exact h (hb ▸ hab ▸ ha)⟩

/-- The map of the given entries, inserted in order. -/
def ofList (entries : List (κ × α)) : OrderedMap κ α :=
  entries.foldl (fun m entry => m.insert entry.1 entry.2) empty

/-! ### Lookup and order -/

@[ext] theorem ext {m n : OrderedMap κ α} (h : m.toList = n.toList) : m = n := by
  cases m; cases n; simpa using h

@[simp] theorem get?_empty (key : κ) : (empty : OrderedMap κ α).get? key = none := rfl

theorem get?_eq_none_iff {m : OrderedMap κ α} {key : κ} : m.get? key = none ↔ key ∉ m.keys := by
  simp only [get?, keys, Option.map_eq_none_iff, List.find?_eq_none, List.mem_map,
    decide_eq_true_eq, not_exists, not_and]

/-- The value of a key is the one in its entry. -/
theorem get?_eq_some_iff {m : OrderedMap κ α} {key : κ} {value : α} :
    m.get? key = some value ↔ (key, value) ∈ m.toList := by
  obtain ⟨entries, hnodup⟩ := m
  induction entries with
  | nil => simp [get?]
  | cons entry rest ih =>
    rw [List.map_cons, List.nodup_cons] at hnodup
    have hrest := ih hnodup.2
    simp only [get?] at hrest ⊢
    by_cases hentry : entry.1 = key
    · -- no entry behind the first one has its key
      have hnot : (key, value) ∉ rest := fun hmem =>
        hnodup.1 (hentry ▸ List.mem_map_of_mem hmem)
      simp only [List.find?_cons, hentry, decide_true, Option.map_some, Option.some.injEq,
        List.mem_cons, hnot, or_false, Prod.ext_iff, true_and]
      exact eq_comm
    · have hne : (key, value) ≠ entry := fun heq => hentry (heq ▸ rfl)
      simp only [List.find?_cons, hentry, decide_false, List.mem_cons, hne, false_or]
      exact hrest

theorem find?_replace_self {key : κ} {entries : List (κ × α)} (value : α)
    (h : key ∈ entries.map Prod.fst) :
    ((replace key value entries).find? fun entry => entry.1 = key).map Prod.snd = some value := by
  induction entries with
  | nil => simp at h
  | cons entry rest ih =>
    by_cases hentry : entry.1 = key
    · simp [replace, hentry]
    · have hrest : key ∈ rest.map Prod.fst :=
        (List.mem_cons.1 h).resolve_left fun heq => hentry heq.symm
      have := ih hrest
      rw [replace] at this ⊢
      simp only [List.map_cons, List.find?_cons, hentry, ↓reduceIte, decide_false]
      exact this

theorem find?_replace_of_ne {key other : κ} (h : key ≠ other) (value : α)
    (entries : List (κ × α)) :
    ((replace key value entries).find? fun entry => entry.1 = other).map Prod.snd =
      (entries.find? fun entry => entry.1 = other).map Prod.snd := by
  induction entries with
  | nil => rfl
  | cons entry rest ih =>
    rw [replace] at ih ⊢
    rw [List.map_cons, List.find?_cons, List.find?_cons]
    by_cases hentry : entry.1 = key
    · simp only [hentry, h, ↓reduceIte, decide_false]
      exact ih
    · by_cases hother : entry.1 = other
      · simp [hother, Ne.symm h]
      · simp only [hentry, hother, ↓reduceIte, decide_false]
        exact ih

/-- Insertion changes the value of one key. -/
theorem get?_insert (m : OrderedMap κ α) (key other : κ) (value : α) :
    (m.insert key value).get? other = if other = key then some value else m.get? other := by
  unfold insert
  split
  · next h =>
    by_cases heq : other = key
    · subst heq
      rw [if_pos rfl]
      exact find?_replace_self value h
    · rw [if_neg heq]
      exact find?_replace_of_ne (Ne.symm heq) value m.toList
  · next h =>
    have hnone := get?_eq_none_iff.2 h
    simp only [get?, List.find?_append, Option.map_eq_none_iff] at hnone ⊢
    by_cases heq : other = key
    · subst heq
      simp [hnone]
    · have : key ≠ other := fun h => heq h.symm
      simp [heq, this]

/-- Insertion keeps the order of the keys and puts a new one at the end. -/
theorem keys_insert (m : OrderedMap κ α) (key : κ) (value : α) :
    (m.insert key value).keys = if key ∈ m.keys then m.keys else m.keys ++ [key] := by
  unfold insert
  split
  · exact map_fst_replace key value m.toList
  · simp [keys]

end OrderedMap

end Accumulator
