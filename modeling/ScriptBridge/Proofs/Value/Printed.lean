import ScriptBridge.Proofs.Parts
import ScriptBridge.Proofs.Text.Quoted
import ScriptBridge.Proofs.Value.Histories

/-!
# Printed forms, read back

Two values have the same printed form only if they are the same value in every detail, the order of
entries, elements and attributes included. Floats and handles are left out, since their forms do not
tell everything, and so are records whose type names could be anything.

Forms share their beginnings: a name may begin an attribute, a record, a set, a byte string or a
word of its own, and only what stands after the name, and once more after a parenthesis, tells which
of them it is. That is enough to tell the kind, and of two values of one kind the parts are told
apart one after the other.

- `Value.Legible`: the values in question. `Value.Spelt` says the same of well-formed values by
  induction.
- `Value.kindOf`, `Value.Spelt.kindOf_reprChars`: the kind from the text, whatever follows it.
- `Value.Spelt.begins`: no form begins as if a list of items were over.
- `Value.readsBack_intChars`, `Value.readsBack_entryText`, `Value.readsBack_attrText`: the parts of
  forms are told apart.
- `Value.Spelt.readsBack_of_members`, `Value.Spelt.readsBack`: a value is told apart as its members
  are, and so all are.
- `Value.eq_of_repr_eq`: whole printed forms.
-/

namespace ScriptBridge

/-! ## Words -/

theorem continuesIdentifier_of_startsIdentifier {c : Char} (h : startsIdentifier c = true) :
    continuesIdentifier c = true := by
  rcases Bool.or_eq_true_iff.mp h with h | h <;> simp [continuesIdentifier, h]

/-- An identifier is a run of characters, and not an empty one. -/
theorem word_of_isIdentifier {name : String} (h : isIdentifier name = true) :
    name.toList ≠ [] ∧ ∀ c ∈ name.toList, continuesIdentifier c = true := by
  unfold isIdentifier at h
  split at h
  · cases h
  next c rest heq =>
    obtain ⟨hc, hrest⟩ := Bool.and_eq_true_iff.mp h
    rw [heq]
    exact ⟨List.cons_ne_nil _ _, List.forall_mem_cons.mpr
      ⟨continuesIdentifier_of_startsIdentifier hc, List.all_eq_true.mp hrest⟩⟩

/-- A stop character ends a word. -/
theorem not_continuesIdentifier_of_mem_stopChars :
    ∀ c ∈ stopChars, continuesIdentifier c = false := by
  have hall : stopChars.all (!continuesIdentifier ·) = true := by decide
  simpa using hall

theorem digits_continue (n : Nat) : ∀ c ∈ Nat.toDigits 10 n, continuesIdentifier c = true := by
  intro c hc
  obtain ⟨d, hd, rfl⟩ := exists_of_mem_toDigits (by decide) hc
  have hall : ∀ d < 10, continuesIdentifier (Nat.digitChar d) = true := by decide
  exact hall d hd

/-- A word with a character that is no digit is no number. -/
theorem digits_ne {n : Nat} {word : List Char} (c : Char) (hc : c ∈ word)
    (hdigit : ∀ d < 10, c ≠ Nat.digitChar d) : Nat.toDigits 10 n ≠ word := by
  rintro rfl
  obtain ⟨d, hd, hcd⟩ := exists_of_mem_toDigits (by decide) hc
  exact hdigit d hd hcd

theorem Stops.word_over {r : List Char} (hr : Stops r) :
    ∀ c ∈ r.head?, continuesIdentifier c = false :=
  fun c hc => not_continuesIdentifier_of_mem_stopChars c (hr c hc)

/-- So does any other character that does not continue one. -/
theorem word_over_cons {c : Char} {r : List Char} (hc : continuesIdentifier c = false) :
    ∀ d ∈ (c :: r).head?, continuesIdentifier d = false := by
  simpa using hc

/-- A word begins with a character of its own. -/
theorem head_word_ne {c : Char} {word r : List Char} (hne : word ≠ [])
    (hword : ∀ c ∈ word, continuesIdentifier c = true) (hc : continuesIdentifier c = false) :
    (word ++ r).head? ≠ some c := by
  cases word with
  | nil => exact absurd rfl hne
  | cons d word =>
    intro h
    obtain rfl := Option.some.inj h
    rw [hword d (by simp)] at hc
    cases hc

/-- A word is not empty and does not begin with a stop character. -/
theorem begins_word (word : List Char) (hne : word ≠ [])
    (hword : ∀ c ∈ word, continuesIdentifier c = true) : Begins word := by
  cases word with
  | nil => exact absurd rfl hne
  | cons c word =>
    refine begins_cons.mpr fun hstop => ?_
    exact head_word_ne (r := []) hne hword (not_continuesIdentifier_of_mem_stopChars c hstop) rfl

namespace Value

/-! ## Texts of members -/

/-- The text of an entry. -/
def entryText (e : Value × Value) : List Char := e.1.reprChars ++ ':' :: ' ' :: e.2.reprChars

/-- The text of an attribute. -/
def attrText (a : String × Value) : List Char := a.1.toList ++ ' ' :: '=' :: ' ' :: a.2.reprChars

@[simp] theorem itemTexts_eq_map (items : List Value) : itemTexts items = items.map reprChars :=
  eq_map_of_cons itemTexts rfl fun _ _ => rfl

@[simp] theorem entryTexts_eq_map (entries : List (Value × Value)) :
    entryTexts entries = entries.map entryText :=
  eq_map_of_cons entryTexts rfl fun _ _ => rfl

@[simp] theorem attrTexts_eq_map (attrs : List (String × Value)) :
    attrTexts attrs = attrs.map attrText :=
  eq_map_of_cons attrTexts rfl fun _ _ => rfl

/-- The end of a tuple: a lone item has a comma after it. -/
def tupleEnd (items : List Value) : List Char :=
  if items.length = 1 then [',', ')'] else [')']

theorem ends_tupleEnd (items : List Value) (r : List Char) : Ends (tupleEnd items ++ r) := by
  unfold tupleEnd
  split
  · exact ⟨stops_cons.mpr (by decide), by simp⟩
  · exact ends_cons (by decide) (by decide)

section

variable (r : List Char)

theorem reprChars_list_append (items : List Value) : (list items).reprChars ++ r =
    '[' :: (commaSeparated (items.map reprChars) ++ ']' :: r) := by
  show '[' :: commaSeparated (itemTexts items) ++ [']'] ++ r = _
  simp

theorem reprChars_tuple_append (items : List Value) : (tuple items).reprChars ++ r =
    '(' :: (commaSeparated (items.map reprChars) ++ (tupleEnd items ++ r)) := by
  show tupleChars (itemTexts items) ++ r = _
  rw [itemTexts_eq_map]
  match items with
  | [] => rfl
  | [v] => simp [tupleChars, tupleEnd, commaSeparated]
  | v :: w :: items => simp [tupleChars, tupleEnd]

theorem reprChars_dict_append (entries : List (Value × Value)) : (dict entries).reprChars ++ r =
    '\x7b' :: (commaSeparated (entries.map entryText) ++ '\x7d' :: r) := by
  show '\x7b' :: commaSeparated (entryTexts entries) ++ ['\x7d'] ++ r = _
  simp

theorem reprChars_set_append (items : List Value) : (set items).reprChars ++ r =
    "set".toList ++ '(' :: '[' :: (commaSeparated (items.map reprChars) ++ ']' :: ')' :: r) := by
  show "set([".toList ++ commaSeparated (itemTexts items) ++ [']', ')'] ++ r = _
  simp

theorem reprChars_record_append (typeName : String) (attrs : List (String × Value)) :
    (record typeName attrs).reprChars ++ r =
      typeName.toList ++ '(' :: (commaSeparated (attrs.map attrText) ++ ')' :: r) := by
  show typeName.toList ++ '(' :: commaSeparated (attrTexts attrs) ++ [')'] ++ r = _
  simp

end

/-! ## Values that are told apart -/

/-- Nothing inside is a float or a handle, and the type names of records are identifiers. -/
structure Legible (v : Value) : Prop where
  noFloat (n : Nat) (x : Binary64) : ¬ Part members n (float x) v
  noCallable (n : Nat) (c : Callable) : ¬ Part members n (callable c) v
  typeNames (n : Nat) (typeName : String) (attrs : List (String × Value))
    (h : Part members n (record typeName attrs) v) : isIdentifier typeName = true

theorem Legible.of_mem {v m : Value} (h : v.Legible) (hm : m ∈ v.members) : m.Legible where
  noFloat n x hx := h.noFloat (n + 1) x (.deeper hm hx)
  noCallable n c hc := h.noCallable (n + 1) c (.deeper hm hc)
  typeNames n typeName attrs hr := h.typeNames (n + 1) typeName attrs (.deeper hm hr)

/-- The values whose printed forms are read back: names are identifiers at every level, and there is
nothing of which the form does not tell everything. -/
inductive Spelt : Value → Prop
  | null : Spelt null
  | bool (b : Bool) : Spelt (bool b)
  | int (n : Int) : Spelt (int n)
  | text (s : String) : Spelt (text s)
  | bytes (bs : List UInt8) : Spelt (bytes bs)
  | list {items : List Value} (h : ∀ v ∈ items, Spelt v) : Spelt (list items)
  | tuple {items : List Value} (h : ∀ v ∈ items, Spelt v) : Spelt (tuple items)
  | dict {entries : List (Value × Value)} (hkeys : ∀ e ∈ entries, Spelt e.1)
      (hvalues : ∀ e ∈ entries, Spelt e.2) : Spelt (dict entries)
  | set {items : List Value} (h : ∀ v ∈ items, Spelt v) : Spelt (set items)
  | record {typeName : String} {attrs : List (String × Value)}
      (htype : isIdentifier typeName = true) (hnames : ∀ a ∈ attrs, isIdentifier a.1 = true)
      (h : ∀ a ∈ attrs, Spelt a.2) : Spelt (record typeName attrs)

/-- Whether a value is legible can be told from its own constructor and its members. -/
theorem Legible.of_forall_mem {v : Value} (hfloat : ∀ x, v ≠ float x)
    (hcallable : ∀ c, v ≠ callable c)
    (htype : ∀ typeName attrs, v = record typeName attrs → isIdentifier typeName = true)
    (h : ∀ m ∈ v.members, m.Legible) : v.Legible where
  noFloat n x hx := by
    cases hx with
    | self => exact hfloat x rfl
    | deeper hm hx => exact (h _ hm).noFloat _ x hx
  noCallable n c hc := by
    cases hc with
    | self => exact hcallable c rfl
    | deeper hm hc => exact (h _ hm).noCallable _ c hc
  typeNames n typeName attrs hr := by
    cases hr with
    | self => exact htype typeName attrs rfl
    | deeper hm hr => exact (h _ hm).typeNames _ typeName attrs hr

theorem Spelt.legible {v : Value} (h : v.Spelt) : v.Legible := by
  induction h with
  | list _ ih => exact .of_forall_mem (by simp) (by simp) (by simp) ih
  | tuple _ ih => exact .of_forall_mem (by simp) (by simp) (by simp) ih
  | set _ ih => exact .of_forall_mem (by simp) (by simp) (by simp) ih
  | dict _ _ ihkeys ihvalues =>
    refine .of_forall_mem (by simp) (by simp) (by simp) fun m hm => ?_
    obtain ⟨e, he, rfl | rfl⟩ := mem_keysAndValues.mp hm
    · exact ihkeys e he
    · exact ihvalues e he
  | record htype _ _ ih =>
    refine .of_forall_mem (by simp) (by simp) ?_ (List.forall_mem_map.mpr ih)
    rintro _ _ ⟨⟩
    exact htype
  | _ => exact .of_forall_mem (by simp) (by simp) (by simp) (by simp [members])

theorem WellFormed.spelt {v : Value} (h : v.WellFormed) (hlegible : v.Legible) : v.Spelt := by
  induction h with
  | null => exact .null
  | bool b => exact .bool b
  | int n => exact .int n
  | text s => exact .text s
  | bytes bs => exact .bytes bs
  | float x => exact absurd (.self _) (hlegible.noFloat 0 x)
  | callable c => exact absurd (.self _) (hlegible.noCallable 0 c)
  | list _ ih => exact .list fun v hv => ih v hv (hlegible.of_mem hv)
  | tuple _ ih => exact .tuple fun v hv => ih v hv (hlegible.of_mem hv)
  | set _ _ _ ih => exact .set fun v hv => ih v hv (hlegible.of_mem hv)
  | dict _ _ _ _ ihkeys ihvalues =>
    exact .dict (fun e he => ihkeys e he (hlegible.of_mem (key_mem_keysAndValues he)))
      fun e he => ihvalues e he (hlegible.of_mem (value_mem_keysAndValues he))
  | record _ hnames _ ih =>
    exact .record (hlegible.typeNames 0 _ _ (.self _)) hnames fun a ha =>
      ih a ha (hlegible.of_mem (List.mem_map_of_mem ha))

/-! ## Kinds -/

/-- The kind of a value whose text is a word. -/
def wordKind (word : List Char) : Kind :=
  if word = "None".toList then .null
  else if word = "True".toList ∨ word = "False".toList then .bool
  else .int

/-- The kind of a value whose text is a word, which may be empty, and something after it. A bracket
right after the parenthesis makes a set and not a record, whatever the word is. -/
def kindFrom (word rest : List Char) : Kind :=
  match rest with
  | '"' :: _ => if word = [] then .text else .bytes
  | '[' :: _ => .list
  | '\x7b' :: _ => .dict
  | '(' :: inner =>
    if word = [] then .tuple else if inner.head? = some '[' then .set else .record
  | _ => wordKind word

/-- The kind of the value that a text begins with. -/
def kindOf (text : List Char) : Kind :=
  kindFrom (text.takeWhile continuesIdentifier) (text.dropWhile continuesIdentifier)

variable {r s : List Char}

theorem kindOf_append (word : List Char) (hword : ∀ c ∈ word, continuesIdentifier c = true)
    (hr : ∀ c ∈ r.head?, continuesIdentifier c = false) : kindOf (word ++ r) = kindFrom word r := by
  obtain ⟨htake, hdrop⟩ := run_append hword hr
  rw [kindOf, htake, hdrop]

theorem kindOf_symbol {c : Char} (hc : continuesIdentifier c = false) :
    kindOf (c :: r) = kindFrom [] (c :: r) :=
  kindOf_append [] (by simp) (word_over_cons hc)

theorem kindOf_word (word : List Char) (hword : ∀ c ∈ word, continuesIdentifier c = true)
    (hr : Stops r) : kindOf (word ++ r) = wordKind word := by
  rw [kindOf_append word hword hr.word_over]
  cases r with
  | nil => rfl
  | cons c r =>
    -- no stop character opens anything
    have hc := stops_cons.mp hr
    simp only [stopChars, List.mem_cons, List.not_mem_nil, or_false] at hc
    rcases hc with rfl | rfl | rfl | rfl | rfl <;> rfl

theorem kindOf_intChars (n : Int) (hr : Stops r) : kindOf (intChars n ++ r) = .int := by
  cases n with
  | ofNat n =>
    have hnull : Nat.toDigits 10 n ≠ "None".toList := digits_ne 'N' (by decide) (by decide)
    have htrue : Nat.toDigits 10 n ≠ "True".toList := digits_ne 'T' (by decide) (by decide)
    have hfalse : Nat.toDigits 10 n ≠ "False".toList := digits_ne 'F' (by decide) (by decide)
    rw [intChars, kindOf_word _ (digits_continue n) hr, wordKind, if_neg hnull,
      if_neg (not_or.mpr ⟨htrue, hfalse⟩)]
  | negSucc n => exact kindOf_symbol (by decide)

/-- No printed form begins with a stop character. -/
theorem Spelt.begins {v : Value} (h : v.Spelt) : Begins v.reprChars := by
  cases h with
  | null => exact begins_word "None".toList (by decide) (List.all_eq_true.mp (by decide))
  | bool b => cases b <;> exact begins_cons.mpr (by decide)
  | int n =>
    cases n with
    | ofNat n => exact begins_word _ Nat.toDigits_ne_nil (digits_continue n)
    | negSucc n => exact begins_cons.mpr (by decide)
  | text s => exact begins_cons.mpr (by decide)
  | bytes bs => exact begins_cons.mpr (by decide)
  | list _ => exact begins_cons.mpr (by decide)
  | dict _ _ => exact begins_cons.mpr (by decide)
  | set _ => exact begins_cons.mpr (by decide)
  | tuple _ =>
    intro r hstops
    rw [reprChars_tuple_append] at hstops
    exact absurd (stops_cons.mp hstops) (by decide)
  | record htype _ _ =>
    intro r hstops
    rw [reprChars_record_append] at hstops
    obtain ⟨hne, hword⟩ := word_of_isIdentifier htype
    exact begins_word _ hne hword _ hstops

/-- The attributes of a record do not begin like the items of a set. -/
theorem head_attrs_ne {attrs : List (String × Value)}
    (hnames : ∀ a ∈ attrs, isIdentifier a.1 = true) :
    (commaSeparated (attrs.map attrText) ++ ')' :: r).head? ≠ some '[' := by
  cases attrs with
  | nil => simp [commaSeparated]
  | cons a attrs =>
    obtain ⟨hne, hword⟩ := word_of_isIdentifier (hnames a (by simp))
    rw [commaSeparated_cons, attrText, List.append_assoc, List.append_assoc]
    exact head_word_ne hne hword (by decide)

theorem Spelt.kindOf_reprChars {v : Value} (h : v.Spelt) (hr : Stops r) :
    kindOf (v.reprChars ++ r) = v.kind := by
  cases h with
  | null => exact kindOf_word "None".toList (List.all_eq_true.mp (by decide)) hr
  | bool b =>
    cases b with
    | false => exact kindOf_word "False".toList (List.all_eq_true.mp (by decide)) hr
    | true => exact kindOf_word "True".toList (List.all_eq_true.mp (by decide)) hr
  | int n => exact kindOf_intChars n hr
  | text s => exact kindOf_symbol (by decide)
  | bytes bs =>
    exact kindOf_append ['b'] (List.all_eq_true.mp (by decide)) (word_over_cons (by decide))
  | list _ => exact kindOf_symbol (by decide)
  | tuple _ =>
    rw [reprChars_tuple_append]
    exact kindOf_symbol (by decide)
  | dict _ _ => exact kindOf_symbol (by decide)
  | set _ =>
    rw [reprChars_set_append]
    exact kindOf_append _ (List.all_eq_true.mp (by decide)) (word_over_cons (by decide))
  | record htype hnames _ =>
    -- the name may be that of a set or of null, but what follows is not
    obtain ⟨hne, hword⟩ := word_of_isIdentifier htype
    rw [reprChars_record_append, kindOf_append _ hword (word_over_cons (by decide)), kindFrom,
      if_neg hne, if_neg (head_attrs_ne hnames)]
    rfl

/-! ## Parts of values -/

theorem readsBack_digits (m n : Nat) : ReadsBack Stops (Nat.toDigits 10) m n := by
  intro r s hr hs h
  obtain ⟨hdigits, hrest⟩ :=
    run_append_inj (digits_continue m) (digits_continue n) hr.word_over hs.word_over h
  exact ⟨toDigits_injective (by decide) (by decide) hdigits, hrest⟩

/-- A minus sign is no digit. -/
theorem digits_append_ne (n : Nat) : Nat.toDigits 10 n ++ r ≠ '-' :: s := fun h =>
  head_word_ne Nat.toDigits_ne_nil (digits_continue n) (by decide) (congrArg List.head? h)

theorem readsBack_intChars (m n : Int) : ReadsBack Stops intChars m n := by
  intro r s hr hs h
  cases m with
  | ofNat m =>
    cases n with
    | ofNat n =>
      obtain ⟨rfl, hrest⟩ := readsBack_digits m n _ _ hr hs h
      exact ⟨rfl, hrest⟩
    | negSucc n => exact absurd h (digits_append_ne m)
  | negSucc m =>
    cases n with
    | ofNat n => exact absurd h.symm (digits_append_ne n)
    | negSucc n =>
      obtain ⟨hsucc, hrest⟩ := readsBack_digits (m + 1) (n + 1) _ _ hr hs (List.cons.inj h).2
      exact ⟨congrArg Int.negSucc (Nat.succ.inj hsucc), hrest⟩

theorem readsBack_entryText {e e' : Value × Value} (hkey : ReadsBack Stops reprChars e.1 e'.1)
    (hvalue : ReadsBack Stops reprChars e.2 e'.2) : ReadsBack Stops entryText e e' := by
  intro r s hr hs h
  simp only [entryText, List.append_assoc, List.cons_append] at h
  obtain ⟨hkeys, h⟩ := hkey _ _ (stops_cons.mpr (by decide)) (stops_cons.mpr (by decide)) h
  obtain ⟨hvalues, hrest⟩ := hvalue _ _ hr hs (List.cons.inj (List.cons.inj h).2).2
  exact ⟨Prod.ext hkeys hvalues, hrest⟩

theorem readsBack_attrText {a a' : String × Value} (hname : isIdentifier a.1 = true)
    (hname' : isIdentifier a'.1 = true) (hvalue : ReadsBack Stops reprChars a.2 a'.2) :
    ReadsBack Stops attrText a a' := by
  intro r s hr hs h
  simp only [attrText, List.append_assoc, List.cons_append] at h
  obtain ⟨hnames, h⟩ := run_append_inj (word_of_isIdentifier hname).2
    (word_of_isIdentifier hname').2 (word_over_cons (by decide)) (word_over_cons (by decide)) h
  obtain ⟨hvalues, hrest⟩ := hvalue _ _ hr hs
    (List.cons.inj (List.cons.inj (List.cons.inj h).2).2).2
  exact ⟨Prod.ext (String.toList_inj.mp hnames) hvalues, hrest⟩

theorem begins_attrText {a : String × Value} (hname : isIdentifier a.1 = true) :
    Begins (attrText a) := by
  obtain ⟨hne, hword⟩ := word_of_isIdentifier hname
  exact (begins_word _ hne hword).append _

/-! ## Values -/

section

variable {a b : Value}

theorem readsBack_items {as bs : List Value} (has : ∀ v ∈ as, v.Spelt) (hbs : ∀ v ∈ bs, v.Spelt)
    (ih : ∀ m ∈ as, ∀ n, n.Spelt → ReadsBack Stops reprChars m n) :
    ReadsBack Ends (fun items => commaSeparated (items.map reprChars)) as bs :=
  readsBack_commaSeparated (fun a ha b hb => ih a ha b (hbs b hb)) (fun a ha => (has a ha).begins)
    fun b hb => (hbs b hb).begins

theorem readsBack_entries {as bs : List (Value × Value)} (has : ∀ e ∈ as, e.1.Spelt)
    (hbs : ∀ e ∈ bs, e.1.Spelt ∧ e.2.Spelt)
    (ih : ∀ m ∈ keysAndValues as, ∀ n, n.Spelt → ReadsBack Stops reprChars m n) :
    ReadsBack Ends (fun entries => commaSeparated (entries.map entryText)) as bs :=
  readsBack_commaSeparated
    (fun a ha b hb => readsBack_entryText (ih a.1 (key_mem_keysAndValues ha) b.1 (hbs b hb).1)
      (ih a.2 (value_mem_keysAndValues ha) b.2 (hbs b hb).2))
    (fun a ha => (has a ha).begins.append _) fun b hb => (hbs b hb).1.begins.append _

theorem readsBack_attrs {as bs : List (String × Value)} (has : ∀ a ∈ as, isIdentifier a.1 = true)
    (hnames : ∀ b ∈ bs, isIdentifier b.1 = true) (hbs : ∀ b ∈ bs, b.2.Spelt)
    (ih : ∀ m ∈ as.map (·.2), ∀ n, n.Spelt → ReadsBack Stops reprChars m n) :
    ReadsBack Ends (fun attrs => commaSeparated (attrs.map attrText)) as bs :=
  readsBack_commaSeparated
    (fun a ha b hb => readsBack_attrText (has a ha) (hnames b hb)
      (ih a.2 (List.mem_map_of_mem ha) b.2 (hbs b hb)))
    (fun a ha => begins_attrText (has a ha)) fun b hb => begins_attrText (hnames b hb)

/-- A value is told apart from all others as its members are. -/
theorem Spelt.readsBack_of_members (ha : a.Spelt) (hb : b.Spelt)
    (ih : ∀ m ∈ a.members, ∀ n, n.Spelt → ReadsBack Stops reprChars m n) :
    ReadsBack Stops reprChars a b := by
  intro r s hr hs h
  -- the text tells the kind, so that only values of one kind are left to compare
  have hkind : a.kind = b.kind := by rw [← ha.kindOf_reprChars hr, h, hb.kindOf_reprChars hs]
  cases ha with
  | null =>
    cases hb with
    | null => exact ⟨rfl, List.append_cancel_left h⟩
    | _ => cases hkind
  | bool x =>
    cases hb with
    | bool y =>
      cases x <;> cases y
      · exact ⟨rfl, List.append_cancel_left h⟩
      · exact absurd (List.cons.inj h).1 (by decide)
      · exact absurd (List.cons.inj h).1 (by decide)
      · exact ⟨rfl, List.append_cancel_left h⟩
    | _ => cases hkind
  | int m =>
    cases hb with
    | int n =>
      obtain ⟨rfl, hrest⟩ := readsBack_intChars m n _ _ hr hs h
      exact ⟨rfl, hrest⟩
    | _ => cases hkind
  | text x =>
    cases hb with
    | text y =>
      obtain ⟨rfl, hrest⟩ := Quoted.readsBack_text x y _ _ hr hs h
      exact ⟨rfl, hrest⟩
    | _ => cases hkind
  | bytes as =>
    cases hb with
    | bytes bs =>
      obtain ⟨rfl, hrest⟩ := Quoted.readsBack_bytes as bs _ _ hr hs h
      exact ⟨rfl, hrest⟩
    | _ => cases hkind
  | list has =>
    cases hb with
    | list hbs =>
      rw [reprChars_list_append, reprChars_list_append] at h
      obtain ⟨rfl, hrest⟩ :=
        (readsBack_items has hbs ih).closed (by decide) (by decide) (List.cons.inj h).2
      exact ⟨rfl, hrest⟩
    | _ => cases hkind
  | tuple has =>
    cases hb with
    | tuple hbs =>
      -- the ends can differ until the items are known to be as many
      rw [reprChars_tuple_append, reprChars_tuple_append] at h
      obtain ⟨rfl, hend⟩ := readsBack_items has hbs ih _ _ (ends_tupleEnd _ r) (ends_tupleEnd _ s)
        (List.cons.inj h).2
      exact ⟨rfl, List.append_cancel_left hend⟩
    | _ => cases hkind
  | dict haskeys _ =>
    cases hb with
    | dict hbskeys hbsvalues =>
      rw [reprChars_dict_append, reprChars_dict_append] at h
      obtain ⟨rfl, hrest⟩ :=
        (readsBack_entries haskeys (fun e he => ⟨hbskeys e he, hbsvalues e he⟩) ih).closed
          (by decide) (by decide) (List.cons.inj h).2
      exact ⟨rfl, hrest⟩
    | _ => cases hkind
  | set has =>
    cases hb with
    | set hbs =>
      rw [reprChars_set_append, reprChars_set_append] at h
      obtain ⟨-, hitems⟩ := List.cons.inj (List.append_cancel_left h)
      obtain ⟨rfl, hrest⟩ :=
        (readsBack_items has hbs ih).closed (by decide) (by decide) (List.cons.inj hitems).2
      exact ⟨rfl, (List.cons.inj hrest).2⟩
    | _ => cases hkind
  | record htype hasnames _ =>
    cases hb with
    | record htype' hbsnames hbs =>
      rw [reprChars_record_append, reprChars_record_append] at h
      -- no parenthesis is part of a name, so that both names end at theirs
      obtain ⟨hword, hattrs⟩ := run_append_inj (word_of_isIdentifier htype).2
        (word_of_isIdentifier htype').2 (word_over_cons (by decide)) (word_over_cons (by decide)) h
      obtain rfl := String.toList_inj.mp hword
      obtain ⟨rfl, hrest⟩ := (readsBack_attrs hasnames hbsnames hbs ih).closed (by decide)
        (by decide) (List.cons.inj hattrs).2
      exact ⟨rfl, hrest⟩
    | _ => cases hkind

/-- **Printed forms are told apart**, whatever may follow them inside a container. -/
theorem Spelt.readsBack (ha : a.Spelt) (hb : b.Spelt) : ReadsBack Stops reprChars a b := by
  induction ha generalizing b with
  | list h ih => exact readsBack_of_members (.list h) hb fun v hv n hn => ih v hv hn
  | tuple h ih => exact readsBack_of_members (.tuple h) hb fun v hv n hn => ih v hv hn
  | set h ih => exact readsBack_of_members (.set h) hb fun v hv n hn => ih v hv hn
  | dict hkeys hvalues ihkeys ihvalues =>
    refine readsBack_of_members (.dict hkeys hvalues) hb fun m hm n hn => ?_
    obtain ⟨e, he, rfl | rfl⟩ := mem_keysAndValues.mp hm
    · exact ihkeys e he hn
    · exact ihvalues e he hn
  | record htype hnames h ih =>
    refine readsBack_of_members (.record htype hnames h) hb fun m hm n hn => ?_
    obtain ⟨a, ha, rfl⟩ := List.mem_map.mp hm
    exact ih a ha hn
  | _ => exact readsBack_of_members (by constructor) hb (by simp [members])

/-- **The printed form determines the value.** Values that are built by operations on containers,
without floats and handles and with identifiers as type names at every level, are identical when
they are printed alike. -/
theorem eq_of_repr_eq (ha : a.Built) (hb : b.Built) (ha' : a.Legible) (hb' : b.Legible)
    (h : a.repr = b.repr) : a = b := by
  have hchars : a.reprChars ++ [] = b.reprChars ++ [] := by
    rw [List.append_nil, List.append_nil]
    exact String.ofList_injective h
  exact ((ha.wellFormed.spelt ha').readsBack (hb.wellFormed.spelt hb') [] [] stops_nil stops_nil
    hchars).1

/-- One dict is built with an entry that is overwritten and an element that is given twice, the
other one without: they are printed alike, and are one. A set and a record called `set` are printed
differently even if both are empty. -/
theorem eq_of_repr_eq_set :
    let point := record "set" (Attributes.after [("b", bytes [0x22]), ("None", tuple [int (-1)])])
    let a := dict (Dict.after [(text "k", null), (tuple [], set (Elements.after [int 2, int 2])),
      (text "k", point)])
    let b := dict (Dict.after [(text "k", point), (tuple [], set (Elements.after [int 2]))])
    (a.Built ∧ b.Built ∧ a.Legible ∧ b.Legible ∧ a.repr = b.repr ∧ a = b) ∧
      (set []).repr ≠ (record "set" []).repr := by
  intro point a b
  have hpoint : point.Built := .record (by simp [Built.bytes, Built.tuple, Built.int])
  have ha : a.Built := .dict (by simp [Built.text, Built.tuple])
    (by simp [Built.null, Built.set, Built.int, hpoint])
  have hb : b.Built := .dict (by simp [Built.text, Built.tuple])
    (by simp [Built.set, Built.int, hpoint])
  -- what either history leaves
  have hpoint' : (record "set" [("b", bytes [0x22]), ("None", tuple [int (-1)])]).Spelt :=
    .record (by decide) (by decide) (by simp [Spelt.bytes, Spelt.tuple, Spelt.int])
  have hdict : (dict [(text "k", record "set" [("b", bytes [0x22]), ("None", tuple [int (-1)])]),
      (tuple [], set [int 2])]).Spelt :=
    .dict (by simp [Spelt.text, Spelt.tuple]) (by simp [Spelt.set, Spelt.int, hpoint'])
  refine ⟨⟨ha, hb, hdict.legible, hdict.legible, rfl,
    eq_of_repr_eq ha hb hdict.legible hdict.legible rfl⟩, fun h => ?_⟩
  have hset : (set (Elements.after [])).Built := .set (by simp)
  have hrecord : (record "set" (Attributes.after [])).Built := .record (by simp)
  have hset' : (set []).Spelt := .set (by simp)
  have hrecord' : (record "set" []).Spelt := .record (by decide) (by simp) (by simp)
  cases eq_of_repr_eq hset hrecord hset'.legible hrecord'.legible h

end

end Value

end ScriptBridge
