/-! Values under texts as keys: each key once, in the order of the keys' code points. -/
namespace Questionnaire

/-- Puts a value under a key into a list of pairs in key order; a value that was there gives
way. -/
def insertByKey {α : Type} (key : String) (value : α) : List (String × α) → List (String × α)
  | [] => [(key, value)]
  | (k, v) :: rest =>
    if key < k then (key, value) :: (k, v) :: rest
    else if key = k then (key, value) :: rest
    else (k, v) :: insertByKey key value rest

/-- A pair that is there after an insertion is the new one or was there before. -/
theorem mem_of_mem_insertByKey {α : Type} {key : String} {value : α} {p : String × α}
    {pairs : List (String × α)} (held : p ∈ insertByKey key value pairs) :
    p = (key, value) ∨ p ∈ pairs := by
  induction pairs with
  | nil => exact .inl (by simpa [insertByKey] using held)
  | cons first rest ih =>
    simp only [insertByKey] at held
    split at held
    · exact List.mem_cons.mp held
    · split at held
      · exact (List.mem_cons.mp held).imp id (List.mem_cons_of_mem first)
      · rcases List.mem_cons.mp held with same | later
        · exact .inr (same ▸ List.mem_cons_self)
        · exact (ih later).imp id (List.mem_cons_of_mem first)

/-- An insertion keeps the keys in order and distinct. -/
theorem insertByKey_pairwise {α : Type} {key : String} {value : α} {pairs : List (String × α)}
    (ordered : pairs.Pairwise (·.1 < ·.1)) :
    (insertByKey key value pairs).Pairwise (·.1 < ·.1) := by
  induction pairs with
  | nil => simp [insertByKey]
  | cons first rest ih =>
    obtain ⟨below, later⟩ := List.pairwise_cons.mp ordered
    simp only [insertByKey]
    split
    · next less =>
      refine List.pairwise_cons.mpr ⟨fun p held => ?_, ordered⟩
      rcases List.mem_cons.mp held with rfl | held
      · exact less
      · exact String.lt_trans less (below p held)
    · next notLess =>
      split
      · next same => exact List.pairwise_cons.mpr ⟨fun p held => same ▸ below p held, later⟩
      · next other =>
        refine List.pairwise_cons.mpr ⟨fun p held => ?_, ih later⟩
        rcases mem_of_mem_insertByKey held with rfl | held
        · exact Std.lt_of_le_of_ne (String.not_lt.mp notLess) (Ne.symm other)
        · exact below p held

/-- Under the key of an insertion lies its value. -/
theorem find?_insertByKey_self {α : Type} (key : String) (value : α)
    (pairs : List (String × α)) :
    (insertByKey key value pairs).find? (·.1 == key) = some (key, value) := by
  induction pairs with
  | nil => simp [insertByKey]
  | cons first rest ih =>
    simp only [insertByKey]
    split
    · simp
    · split
      · simp
      · next other =>
        have skipped : (first.1 == key) = false := by simpa using Ne.symm other
        rw [List.find?_cons, skipped]
        exact ih

/-- Under every other key lies what lay there before. -/
theorem find?_insertByKey_of_ne {α : Type} {key other : String} (value : α)
    (pairs : List (String × α)) (different : other ≠ key) :
    (insertByKey key value pairs).find? (·.1 == other) = pairs.find? (·.1 == other) := by
  have passed : (key == other) = false := by simpa using Ne.symm different
  induction pairs with
  | nil => simp [insertByKey, passed]
  | cons first rest ih =>
    simp only [insertByKey]
    split
    · rw [List.find?_cons, passed]
    · split
      · next same => simp only [List.find?_cons, passed, ← same]
      · simp only [List.find?_cons, ih]

/-- Behind all keys that are there an insertion puts its pair last. -/
theorem insertByKey_of_last {α : Type} {key : String} {value : α} {pairs : List (String × α)}
    (last : ∀ p ∈ pairs, p.1 < key) : insertByKey key value pairs = pairs ++ [(key, value)] := by
  induction pairs with
  | nil => rfl
  | cons first rest ih =>
    obtain ⟨below, later⟩ := List.forall_mem_cons.mp last
    have notLess : ¬ key < first.1 := fun less =>
      String.lt_irrefl key (String.lt_trans less below)
    have other : key ≠ first.1 := fun same => String.lt_irrefl key (same ▸ below)
    rw [insertByKey, if_neg notLess, if_neg other, ih later, List.cons_append]

/-- Values under texts, with each key once and the keys in order. -/
structure Keyed (α : Type) where
  entries : List (String × α)
  ordered : entries.Pairwise (·.1 < ·.1)
deriving DecidableEq

namespace Keyed

variable {α : Type}

/-- No values. -/
def empty : Keyed α where
  entries := []
  ordered := .nil

instance : Inhabited (Keyed α) := ⟨empty⟩

/-- Puts a value under a key in the place of the one that was there. -/
def insert (key : String) (value : α) (keyed : Keyed α) : Keyed α where
  entries := insertByKey key value keyed.entries
  ordered := insertByKey_pairwise keyed.ordered

/-- Takes pairs one after the other; of a repeated key the last value stays. -/
def ofList (pairs : List (String × α)) : Keyed α :=
  pairs.foldl (fun keyed pair => keyed.insert pair.1 pair.2) empty

/-- The value under a key. -/
def get? (key : String) (keyed : Keyed α) : Option α :=
  (keyed.entries.find? (·.1 == key)).map Prod.snd

@[simp]
theorem get?_insert_self (key : String) (value : α) (keyed : Keyed α) :
    (keyed.insert key value).get? key = some value := by
  simp [get?, insert, find?_insertByKey_self]

/-- An insertion leaves the values under other keys as they are. -/
theorem get?_insert_of_ne {key other : String} (value : α) (keyed : Keyed α)
    (different : other ≠ key) : (keyed.insert key value).get? other = keyed.get? other := by
  simp [get?, insert, find?_insertByKey_of_ne value keyed.entries different]

/-- Under each key lies the last value that was taken with it. -/
theorem get?_ofList (key : String) (pairs : List (String × α)) :
    (ofList pairs).get? key = (pairs.reverse.find? (·.1 == key)).map Prod.snd := by
  rw [ofList, List.foldl_eq_foldr_reverse]
  induction pairs.reverse with
  | nil => rfl
  | cons pair earlier ih =>
    rw [List.foldr_cons]
    by_cases same : pair.1 = key
    · simp [same]
    · rw [get?_insert_of_ne _ _ (Ne.symm same), ih]
      simp [same]

/-- Pairs in key order behind those that are there are taken as they are. -/
theorem foldl_insert_entries (pairs : List (String × α)) (keyed : Keyed α)
    (ordered : (keyed.entries ++ pairs).Pairwise (·.1 < ·.1)) :
    (pairs.foldl (fun keyed pair => keyed.insert pair.1 pair.2) keyed).entries =
      keyed.entries ++ pairs := by
  induction pairs generalizing keyed with
  | nil => rw [List.foldl_nil, List.append_nil]
  | cons pair rest ih =>
    have last : ∀ p ∈ keyed.entries, p.1 < pair.1 := fun p held =>
      (List.pairwise_append.mp ordered).2.2 p held pair List.mem_cons_self
    have inserted : (keyed.insert pair.1 pair.2).entries = keyed.entries ++ [pair] :=
      insertByKey_of_last last
    have split : keyed.entries ++ pair :: rest = (keyed.insert pair.1 pair.2).entries ++ rest := by
      rw [inserted, List.append_assoc, List.singleton_append]
    rw [List.foldl_cons, split]
    exact ih _ (split ▸ ordered)

/-- Nothing changes if the pairs that are there are taken once more. -/
theorem ofList_entries (keyed : Keyed α) : ofList keyed.entries = keyed := by
  have taken := foldl_insert_entries keyed.entries empty keyed.ordered
  obtain ⟨entries, ordered⟩ := keyed
  unfold ofList
  generalize List.foldl _ empty entries = other at taken
  obtain ⟨others, _⟩ := other
  obtain rfl : others = entries := taken
  rfl

end Keyed
end Questionnaire
