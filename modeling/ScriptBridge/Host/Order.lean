import ScriptBridge.Host.Value
import ScriptBridge.Value.Same

/-!
# Sets and maps of host values

Which host values count as the same element or key, how they are ordered where a container is
sorted, and what becomes of a list of items or entries that is collected into a container.

- `HostValue.same`: sameness, each embedded value by its own.
- `HostValue.compare`: the order of the types that have one; values of other types are not told
  apart.
- `Sorted.put`: put a pair into a list in ascending order of keys.
- `SequenceKind.collect`, `MappingKind.collect`: the items or entries that a container keeps. Where
  two keys are the same the last value stays. Hash containers and ordered ones keep the first key,
  sorted ones the last.
-/

namespace ScriptBridge

namespace HostValue

mutual

/-- Sameness of host values. -/
def same : HostValue → HostValue → Bool
  | bool a, bool b => a == b
  | int t m, int u n => t == u && m.val == n.val
  | wrapping t m, wrapping u n => t == u && m.val == n.val
  | bigInt m, bigInt n => m == n
  | single x, single y => x.same y
  | double x, double y => x.same y
  | string s, string t => s == t
  | char c, char d => c == d
  | bytes as, bytes bs => as == bs
  | callable c, callable d => c == d
  | script v, script w => v.same w
  | dynamic d, dynamic e => d.same e
  | json j, json k => j.same k
  | none, none => true
  | some v, some w => same v w
  | sequence kind as, sequence kind' bs => kind == kind' && eachSame as bs
  | mapping kind as, mapping kind' bs => kind == kind' && entriesSame as bs
  | struct decl as hs, struct decl' bs hs' => decl == decl' && (eachSame as bs && eachSame hs hs')
  | _, _ => false

/-- Item by item, in order. -/
def eachSame : List HostValue → List HostValue → Bool
  | [], [] => true
  | a :: as, b :: bs => same a b && eachSame as bs
  | _, _ => false

/-- Entry by entry, in order. -/
def entriesSame : List (HostValue × HostValue) → List (HostValue × HostValue) → Bool
  | [], [] => true
  | (k, v) :: as, (l, w) :: bs => same k l && (same v w && entriesSame as bs)
  | _, _ => false

end

mutual

/-- The order of host values: false before true, numbers and characters by size, text by code point,
nothing before something, containers item by item, structs field by field. -/
def compare : HostValue → HostValue → Ordering
  | bool a, bool b => Ord.compare a b
  | int _ m, int _ n => Ord.compare m.val n.val
  | wrapping _ m, wrapping _ n => Ord.compare m.val n.val
  | bigInt m, bigInt n => Ord.compare m n
  | string s, string t => Ord.compare s t
  | char c, char d => Ord.compare c.toNat d.toNat
  | none, none => .eq
  | none, some _ => .lt
  | some _, none => .gt
  | some v, some w => compare v w
  | sequence _ as, sequence _ bs => compareItems as bs
  | mapping _ as, mapping _ bs => compareEntries as bs
  | struct _ as hs, struct _ bs hs' => (compareItems as bs).then (compareItems hs hs')
  | _, _ => .eq

/-- Item by item; of two lists that agree as far as they go the shorter is first. -/
def compareItems : List HostValue → List HostValue → Ordering
  | [], [] => .eq
  | [], _ :: _ => .lt
  | _ :: _, [] => .gt
  | a :: as, b :: bs => (compare a b).then (compareItems as bs)

/-- Entry by entry, a key before its value. -/
def compareEntries :
    List (HostValue × HostValue) → List (HostValue × HostValue) → Ordering
  | [], [] => .eq
  | [], _ :: _ => .lt
  | _ :: _, [] => .gt
  | (k, v) :: as, (l, w) :: bs => (compare k l).then ((compare v w).then (compareEntries as bs))

end

end HostValue

namespace Sorted

variable {α β : Type}

/-- Put a pair into a list in ascending order of keys, in the place of a pair with an equal key. -/
def put (cmp : α → α → Ordering) : List (α × β) → α → β → List (α × β)
  | [], key, value => [(key, value)]
  | (k, v) :: rest, key, value =>
    match cmp key k with
    | .lt => (key, value) :: (k, v) :: rest
    | .eq => (key, value) :: rest
    | .gt => (k, v) :: put cmp rest key value

/-- Put pairs one after the other. -/
def putAll (cmp : α → α → Ordering) (entries more : List (α × β)) : List (α × β) :=
  more.foldl (fun acc e => put cmp acc e.1 e.2) entries

end Sorted

/-- The items that a sequence keeps of a list. A sorted set is a sorted map without values. -/
def SequenceKind.collect (kind : SequenceKind) (items : List HostValue) : List HostValue :=
  match kind with
  | vector => items
  | array _ => items
  | hashSet => Distinct.insertAll HostValue.same [] items
  | sortedSet => (Sorted.putAll HostValue.compare [] (items.map fun x => (x, ()))).map (·.1)

/-- The entries that a map keeps of a list. -/
def MappingKind.collect (kind : MappingKind) (entries : List (HostValue × HostValue)) :
    List (HostValue × HostValue) :=
  match kind with
  | hashMap => Assoc.putAll HostValue.same [] entries
  | sortedMap => Sorted.putAll HostValue.compare [] entries
  | orderedMap => Assoc.putAll HostValue.same [] entries

end ScriptBridge
