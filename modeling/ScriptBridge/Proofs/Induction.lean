import ScriptBridge.Host.Tree

/-!
# Induction by members

Script values, shapes, documents, dynamic values and host values hold lists of themselves. Induction
over any of them assumes the property of every member of a container; these are the default
principles of `induction` for the five types.

- `Value.inductOnMembers`: for script values.
- `HostTree.inductOnMembers`: for shapes.
- `HostTree.Inside`: a shape is another one or stands somewhere inside it, keys included.
- `Json.inductOnMembers`: for documents.
- `Dynamic.inductOnMembers`: for dynamic values.
- `HostValue.inductOnMembers`, `HostValue.Inside`: the same for host values. Fields that are the
  host's alone are no members.
-/

namespace ScriptBridge

namespace Value

section

variable {P : Value → Prop} (null : P null) (bool : ∀ b, P (bool b)) (int : ∀ n, P (int n))
  (float : ∀ x, P (float x)) (text : ∀ s, P (text s)) (bytes : ∀ bs, P (bytes bs))
  (list : ∀ items, (∀ v ∈ items, P v) → P (list items))
  (tuple : ∀ items, (∀ v ∈ items, P v) → P (tuple items))
  (dict : ∀ entries, (∀ e ∈ entries, P e.1 ∧ P e.2) → P (dict entries))
  (set : ∀ items, (∀ v ∈ items, P v) → P (set items))
  (callable : ∀ c, P (callable c))
  (record : ∀ typeName attrs, (∀ a ∈ attrs, P a.2) → P (record typeName attrs))

include null bool int float text bytes list tuple dict set callable record

@[elab_as_elim, induction_eliminator]
theorem inductOnMembers : ∀ v, P v
  | .null => null
  | .bool b => bool b
  | .int n => int n
  | .float x => float x
  | .text s => text s
  | .bytes bs => bytes bs
  | .list items => list items fun v _ => inductOnMembers v
  | .tuple items => tuple items fun v _ => inductOnMembers v
  | .dict entries => dict entries fun (k, v) h =>
    have : 1 + sizeOf k + sizeOf v < sizeOf entries := List.sizeOf_lt_of_mem h
    ⟨inductOnMembers k, inductOnMembers v⟩
  | .set items => set items fun v _ => inductOnMembers v
  | .callable c => callable c
  | .record typeName attrs => record typeName attrs fun (name, v) h =>
    have : 1 + sizeOf name + sizeOf v < sizeOf attrs := List.sizeOf_lt_of_mem h
    inductOnMembers v
termination_by v => sizeOf v

end

end Value

namespace HostTree

section

variable {P : HostTree → Prop} (nil : P nil) (bool : ∀ b, P (bool b)) (signed : ∀ n, P (signed n))
  (unsigned : ∀ n, P (unsigned n)) (big : ∀ n, P (big n)) (float : ∀ x, P (float x))
  (str : ∀ s, P (str s)) (bytes : ∀ bs, P (bytes bs))
  (seq : ∀ items, (∀ t ∈ items, P t) → P (seq items))
  (map : ∀ entries, (∀ e ∈ entries, P e.1 ∧ P e.2) → P (map entries))
  (struct : ∀ typeName fields, (∀ f ∈ fields, P f.2) → P (struct typeName fields))
  (callable : ∀ c, P (callable c)) (script : ∀ v, P (script v))
  (unsupported : ∀ name, P (unsupported name))

include nil bool signed unsigned big float str bytes seq map struct callable script unsupported

@[elab_as_elim, induction_eliminator]
theorem inductOnMembers : ∀ t, P t
  | .nil => nil
  | .bool b => bool b
  | .signed n => signed n
  | .unsigned n => unsigned n
  | .big n => big n
  | .float x => float x
  | .str s => str s
  | .bytes bs => bytes bs
  | .seq items => seq items fun t _ => inductOnMembers t
  | .map entries => map entries fun (k, v) h =>
    have : 1 + sizeOf k + sizeOf v < sizeOf entries := List.sizeOf_lt_of_mem h
    ⟨inductOnMembers k, inductOnMembers v⟩
  | .struct typeName fields => struct typeName fields fun (name, t) h =>
    have : 1 + sizeOf name + sizeOf t < sizeOf fields := List.sizeOf_lt_of_mem h
    inductOnMembers t
  | .callable c => callable c
  | .script v => script v
  | .unsupported name => unsupported name
termination_by t => sizeOf t

end

/-- The first shape is the second or stands inside it: as an item, a key, a value or a field. -/
inductive Inside : HostTree → HostTree → Prop
  | self (t : HostTree) : Inside t t
  | item {t member : HostTree} {items : List HostTree} (h : member ∈ items)
      (below : Inside t member) : Inside t (seq items)
  | key {t : HostTree} {e : HostTree × HostTree} {entries : List (HostTree × HostTree)}
      (h : e ∈ entries) (below : Inside t e.1) : Inside t (map entries)
  | value {t : HostTree} {e : HostTree × HostTree} {entries : List (HostTree × HostTree)}
      (h : e ∈ entries) (below : Inside t e.2) : Inside t (map entries)
  | field {t : HostTree} {f : String × HostTree} {typeName : String}
      {fields : List (String × HostTree)} (h : f ∈ fields) (below : Inside t f.2) :
      Inside t (struct typeName fields)

theorem Inside.trans {r s t : HostTree} (hrs : Inside r s) (hst : Inside s t) : Inside r t := by
  induction hst with
  | self => exact hrs
  | item h _ ih => exact .item h ih
  | key h _ ih => exact .key h ih
  | value h _ ih => exact .value h ih
  | field h _ ih => exact .field h ih

/-- A script value inside a sequence is inside an item. -/
theorem inside_script_seq {items : List HostTree} {v : Value} :
    Inside (script v) (seq items) ↔ ∃ t ∈ items, Inside (script v) t := by
  constructor
  · rintro (_ | ⟨ht, below⟩)
    exact ⟨_, ht, below⟩
  · rintro ⟨t, ht, below⟩
    exact .item ht below

/-- A script value inside a struct is inside a field. -/
theorem inside_script_struct {typeName : String} {fields : List (String × HostTree)}
    {v : Value} :
    Inside (script v) (struct typeName fields) ↔ ∃ f ∈ fields, Inside (script v) f.2 := by
  constructor
  · intro h
    cases h with
    | field hf below => exact ⟨_, hf, below⟩
  · rintro ⟨f, hf, below⟩
    exact .field hf below

end HostTree

namespace Json

section

variable {P : Json → Prop} (null : P null) (bool : ∀ b, P (bool b)) (int : ∀ n, P (int n))
  (float : ∀ x, P (float x)) (str : ∀ s, P (str s))
  (arr : ∀ items, (∀ j ∈ items, P j) → P (arr items))
  (obj : ∀ members, (∀ m ∈ members, P m.2) → P (obj members))

include null bool int float str arr obj

@[elab_as_elim, induction_eliminator]
theorem inductOnMembers : ∀ j, P j
  | .null => null
  | .bool b => bool b
  | .int n => int n
  | .float x => float x
  | .str s => str s
  | .arr items => arr items fun j _ => inductOnMembers j
  | .obj members => obj members fun (name, j) h =>
    have : 1 + sizeOf name + sizeOf j < sizeOf members := List.sizeOf_lt_of_mem h
    inductOnMembers j
termination_by j => sizeOf j

end

end Json

namespace Dynamic

section

variable {P : Dynamic → Prop} (null : P null) (bool : ∀ b, P (bool b)) (int : ∀ n, P (int n))
  (uint : ∀ n, P (uint n)) (float : ∀ x, P (float x)) (str : ∀ s, P (str s))
  (bytes : ∀ bs, P (bytes bs)) (list : ∀ items, (∀ d ∈ items, P d) → P (list items))
  (map : ∀ entries, (∀ e ∈ entries, P e.1 ∧ P e.2) → P (map entries))

include null bool int uint float str bytes list map

@[elab_as_elim, induction_eliminator]
theorem inductOnMembers : ∀ d, P d
  | .null => null
  | .bool b => bool b
  | .int n => int n
  | .uint n => uint n
  | .float x => float x
  | .str s => str s
  | .bytes bs => bytes bs
  | .list items => list items fun d _ => inductOnMembers d
  | .map entries => map entries fun (k, d) h =>
    have : 1 + sizeOf k + sizeOf d < sizeOf entries := List.sizeOf_lt_of_mem h
    ⟨inductOnMembers k, inductOnMembers d⟩
termination_by d => sizeOf d

end

end Dynamic

namespace HostValue

section

variable {P : HostValue → Prop} (bool : ∀ b, P (bool b)) (int : ∀ t n, P (int t n))
  (wrapping : ∀ t n, P (wrapping t n)) (bigInt : ∀ n, P (bigInt n)) (single : ∀ x, P (single x))
  (double : ∀ x, P (double x)) (string : ∀ s, P (string s)) (char : ∀ c, P (char c))
  (bytes : ∀ bs, P (bytes bs)) (callable : ∀ c, P (callable c)) (script : ∀ v, P (script v))
  (dynamic : ∀ d, P (dynamic d)) (json : ∀ j, P (json j)) (none : P none)
  (some : ∀ v, P v → P (some v))
  (sequence : ∀ kind items, (∀ v ∈ items, P v) → P (sequence kind items))
  (mapping : ∀ kind entries, (∀ e ∈ entries, P e.1 ∧ P e.2) → P (mapping kind entries))
  (struct : ∀ decl stored hidden, (∀ v ∈ stored, P v) → (∀ v ∈ hidden, P v) →
    P (struct decl stored hidden))

include bool int wrapping bigInt single double string char bytes callable script dynamic json none
  some sequence mapping struct

@[elab_as_elim, induction_eliminator]
theorem inductOnMembers : ∀ v, P v
  | .bool b => bool b
  | .int t n => int t n
  | .wrapping t n => wrapping t n
  | .bigInt n => bigInt n
  | .single x => single x
  | .double x => double x
  | .string s => string s
  | .char c => char c
  | .bytes bs => bytes bs
  | .callable c => callable c
  | .script v => script v
  | .dynamic d => dynamic d
  | .json j => json j
  | .none => none
  | .some v => some v (inductOnMembers v)
  | .sequence kind items => sequence kind items fun v _ => inductOnMembers v
  | .mapping kind entries => mapping kind entries fun (k, v) h =>
    have : 1 + sizeOf k + sizeOf v < sizeOf entries := List.sizeOf_lt_of_mem h
    ⟨inductOnMembers k, inductOnMembers v⟩
  | .struct decl stored hidden =>
    struct decl stored hidden (fun v _ => inductOnMembers v) fun v _ => inductOnMembers v
termination_by v => sizeOf v

end

/-- The first value is the second or stands inside it: in an option, as an item, a key or a value,
or in a field that the table of a struct names. -/
inductive Inside : HostValue → HostValue → Prop
  | self (v : HostValue) : Inside v v
  | some {v member : HostValue} (below : Inside v member) : Inside v (some member)
  | item {v member : HostValue} {kind : SequenceKind} {items : List HostValue}
      (h : member ∈ items) (below : Inside v member) : Inside v (sequence kind items)
  | key {v : HostValue} {e : HostValue × HostValue} {kind : MappingKind}
      {entries : List (HostValue × HostValue)} (h : e ∈ entries) (below : Inside v e.1) :
      Inside v (mapping kind entries)
  | value {v : HostValue} {e : HostValue × HostValue} {kind : MappingKind}
      {entries : List (HostValue × HostValue)} (h : e ∈ entries) (below : Inside v e.2) :
      Inside v (mapping kind entries)
  | field {v member : HostValue} {decl : StructDecl} {stored hidden : List HostValue}
      (h : member ∈ stored) (below : Inside v member) : Inside v (struct decl stored hidden)

theorem Inside.trans {u v w : HostValue} (huv : Inside u v) (hvw : Inside v w) : Inside u w := by
  induction hvw with
  | self => exact huv
  | some _ ih => exact .some ih
  | item h _ ih => exact .item h ih
  | key h _ ih => exact .key h ih
  | value h _ ih => exact .value h ih
  | field h _ ih => exact .field h ih

end HostValue

end ScriptBridge
