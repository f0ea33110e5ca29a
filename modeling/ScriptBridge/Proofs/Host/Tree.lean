import ScriptBridge.Host.Tree
import ScriptBridge.Proofs.Traversal

/-!
# The shapes of members

Shapes of containers are made of the shapes of their members, one by one.

- `Json.itemTrees_eq_map`, `Json.memberTrees_eq_map`, `Dynamic.itemTrees_eq_map`,
  `Dynamic.entryTrees_eq_map`, `HostValue.itemTrees_eq_map`, `HostValue.entryTrees_eq_map`: lists of
  members.
- `Dynamic.tree_ne_struct`: no dynamic value is a struct.
-/

namespace ScriptBridge

namespace Json

theorem itemTrees_eq_map (items : List Json) : itemTrees items = items.map tree :=
  eq_map_of_cons itemTrees rfl fun _ _ => rfl

theorem memberTrees_eq_map (members : List (String × Json)) :
    memberTrees members = members.map fun m => (.str m.1, m.2.tree) :=
  eq_map_of_cons memberTrees rfl fun _ _ => rfl

end Json

namespace Dynamic

theorem itemTrees_eq_map (items : List Dynamic) : itemTrees items = items.map tree :=
  eq_map_of_cons itemTrees rfl fun _ _ => rfl

theorem entryTrees_eq_map (entries : List (Dynamic × Dynamic)) :
    entryTrees entries = entries.map fun e => (e.1.tree, e.2.tree) :=
  eq_map_of_cons entryTrees rfl fun _ _ => rfl

/-- No dynamic value is a struct. -/
theorem tree_ne_struct (d : Dynamic) (typeName : String) (fields : List (String × HostTree)) :
    d.tree ≠ .struct typeName fields := by
  cases d <;> simp [tree]

end Dynamic

namespace HostValue

theorem itemTrees_eq_map (items : List HostValue) : itemTrees items = items.map tree :=
  eq_map_of_cons itemTrees rfl fun _ _ => rfl

theorem entryTrees_eq_map (entries : List (HostValue × HostValue)) :
    entryTrees entries = entries.map fun e => (e.1.tree, e.2.tree) :=
  eq_map_of_cons entryTrees rfl fun _ _ => rfl

end HostValue

end ScriptBridge
