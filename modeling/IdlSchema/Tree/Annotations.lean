/-!
# Annotations

The annotations of a declaration or a type reference map keys to values.  They keep the order in
which their keys were first written; two of them agree when they map the same keys to the same
values, whatever the order.
-/

namespace IdlSchema

/-- A list of keys and values without a repeated key. -/
structure Annotations where
  entries : List (String × String)
  keys_nodup : (entries.map Prod.fst).Nodup
  deriving DecidableEq

namespace Annotations

/-- No annotation. -/
def empty : Annotations :=
  { entries := [], keys_nodup := List.nodup_nil }

instance : Inhabited Annotations := ⟨empty⟩

/-- The value of a key. -/
def get? (annotations : Annotations) (key : String) : Option String :=
  annotations.entries.lookup key

/-- Whether a key has a value. -/
def contains (annotations : Annotations) (key : String) : Bool :=
  (annotations.get? key).isSome

/-- The number of keys. -/
def size (annotations : Annotations) : Nat :=
  annotations.entries.length

/-- Whether two annotations map the same keys to the same values. -/
def agrees (a b : Annotations) : Bool :=
  a.size == b.size && a.entries.all fun (key, value) => b.get? key == some value

/-- A list of entries with the value of one key replaced. -/
def replaceValue (key value : String) (entries : List (String × String)) :
    List (String × String) :=
  entries.map fun entry => if entry.1 = key then (key, value) else entry

theorem keys_replaceValue (key value : String) (entries : List (String × String)) :
    (replaceValue key value entries).map Prod.fst = entries.map Prod.fst := by
  simp only [replaceValue, List.map_map]
  apply List.map_congr_left
  intro entry _
  by_cases same : entry.1 = key <;> simp [same]

/-- Gives a key a value: a new key goes to the end, an old one keeps its place. -/
def insert (annotations : Annotations) (key value : String) : Annotations :=
  if present : key ∈ annotations.entries.map Prod.fst then
    { entries := replaceValue key value annotations.entries
      keys_nodup := by rw [keys_replaceValue]; exact annotations.keys_nodup }
  else
    { entries := annotations.entries ++ [(key, value)]
      keys_nodup := by
        rw [List.map_append, List.nodup_append]
        refine ⟨annotations.keys_nodup, by simp, ?_⟩
        intro a a_mem b b_mem
        simp only [List.map_cons, List.map_nil, List.mem_singleton] at b_mem
        subst b_mem
        exact fun same => present (same ▸ a_mem) }

/-- The annotations that result from giving values to keys one after the other. -/
def ofList (entries : List (String × String)) : Annotations :=
  entries.foldl (fun annotations (key, value) => annotations.insert key value) empty

theorem insert_entries_of_not_mem {annotations : Annotations} {key value : String}
    (absent : key ∉ annotations.entries.map Prod.fst) :
    (annotations.insert key value).entries = annotations.entries ++ [(key, value)] := by
  simp [insert, absent]

end Annotations
end IdlSchema
