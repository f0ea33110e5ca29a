/-!
# Insertion-ordered associations

Lists of pairs, and lists of elements, that hold each key once and remember the order of first
insertion. What counts as the same key is a parameter, since script values, dynamic values, host
values and names each have their own sameness.

- `Assoc.get?`, `Assoc.contains`: look a key up.
- `Assoc.put`: overwrite in place, keeping the key object and its position, or append.
- `Assoc.putAll`: put pairs one after the other.
- `Distinct.insert`, `Distinct.insertAll`: the same for elements.
-/

namespace ScriptBridge

namespace Assoc

variable {α β : Type}

/-- The value stored under a key. The key asked for is the first argument of `same`. -/
def get? (same : α → α → Bool) (entries : List (α × β)) (key : α) : Option β :=
  (entries.find? fun e => same key e.1).map (·.2)

/-- Whether a key is present. -/
def contains (same : α → α → Bool) (entries : List (α × β)) (key : α) : Bool :=
  entries.any fun e => same key e.1

/-- Store a value under a key. A key that is present keeps its position and its own form. -/
def put (same : α → α → Bool) : List (α × β) → α → β → List (α × β)
  | [], key, value => [(key, value)]
  | (k, v) :: rest, key, value =>
    if same key k then (k, value) :: rest else (k, v) :: put same rest key value

/-- Store pairs one after the other; of pairs with the same key the last value stays. -/
def putAll (same : α → α → Bool) (entries more : List (α × β)) : List (α × β) :=
  more.foldl (fun acc e => put same acc e.1 e.2) entries

end Assoc

namespace Distinct

variable {α : Type}

/-- Append an element unless it is present. -/
def insert (same : α → α → Bool) (items : List α) (x : α) : List α :=
  if items.any (same x) then items else items ++ [x]

/-- Insert elements one after the other; of elements that are the same the first stays. -/
def insertAll (same : α → α → Bool) (items more : List α) : List α :=
  more.foldl (insert same) items

end Distinct

end ScriptBridge
