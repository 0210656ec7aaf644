/-!
Maps whose keys are kept in the order of their first insertion. A key that is inserted again
keeps its place and takes the new value.
-/
namespace ShaderBackend

/-- Keys and values, each key once, in the order of first insertion. -/
structure OrderedMap (Key Value : Type) where
  entries : List (Key × Value) := []
  deriving DecidableEq, Repr

namespace OrderedMap

variable {Key Value : Type} [DecidableEq Key]

/-- Writes one entry into a list of entries. -/
def put (key : Key) (value : Value) : List (Key × Value) → List (Key × Value)
  | [] => [(key, value)]
  | entry :: rest =>
    if entry.1 = key then (key, value) :: rest else entry :: put key value rest

def insert (map : OrderedMap Key Value) (key : Key) (value : Value) : OrderedMap Key Value :=
  ⟨put key value map.entries⟩

def get? (map : OrderedMap Key Value) (key : Key) : Option Value :=
  (map.entries.find? (·.1 = key)).map (·.2)

def contains (map : OrderedMap Key Value) (key : Key) : Bool := (map.get? key).isSome

omit [DecidableEq Key] in
/-- Keys in the order of first insertion. -/
def keys (map : OrderedMap Key Value) : List Key := map.entries.map (·.1)

omit [DecidableEq Key] in
def size (map : OrderedMap Key Value) : Nat := map.entries.length

/-- The map after a list of insertions, the last value of a key winning. -/
def ofList (entries : List (Key × Value)) : OrderedMap Key Value :=
  entries.foldl (fun map entry => map.insert entry.1 entry.2) {}

@[simp] theorem get?_empty (key : Key) : ({} : OrderedMap Key Value).get? key = none := rfl

theorem find?_put (key other : Key) (value : Value) (entries : List (Key × Value)) :
    ((put key value entries).find? (·.1 = other)).map (·.2) =
      if key = other then some value else (entries.find? (·.1 = other)).map (·.2) := by
  induction entries with
  | nil => by_cases h : key = other <;> simp [put, h]
  | cons entry rest ih =>
      by_cases he : entry.1 = key <;> by_cases h : key = other <;>
        by_cases ho : entry.1 = other <;> simp_all [put]

/-- An insertion is seen at its own key and nowhere else. -/
@[simp] theorem get?_insert (map : OrderedMap Key Value) (key other : Key) (value : Value) :
    (map.insert key value).get? other = if key = other then some value else map.get? other :=
  find?_put key other value map.entries

theorem map_fst_put (key : Key) (value : Value) (entries : List (Key × Value)) :
    (put key value entries).map (·.1) =
      if key ∈ entries.map (·.1) then entries.map (·.1) else entries.map (·.1) ++ [key] := by
  induction entries with
  | nil => simp [put]
  | cons entry rest ih =>
      by_cases he : entry.1 = key
      · simp [put, he]
      · by_cases hm : key ∈ rest.map (·.1) <;> simp_all [put, eq_comm]

/-- A new key goes to the end; a known key moves nothing. -/
theorem keys_insert (map : OrderedMap Key Value) (key : Key) (value : Value) :
    (map.insert key value).keys = if key ∈ map.keys then map.keys else map.keys ++ [key] :=
  map_fst_put key value map.entries

/-- An insertion keeps the keys apart. -/
theorem nodup_keys_insert {map : OrderedMap Key Value} (h : map.keys.Nodup) (key : Key)
    (value : Value) : (map.insert key value).keys.Nodup := by
  rw [keys_insert]
  split
  · exact h
  · rename_i hm
    exact List.nodup_append.2 ⟨h, by simp, by
      intro a ha b hb
      simp only [List.mem_singleton] at hb
      subst hb
      exact fun e => hm (e ▸ ha)⟩

end OrderedMap
end ShaderBackend
