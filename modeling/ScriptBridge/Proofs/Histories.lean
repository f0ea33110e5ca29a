import ScriptBridge.Proofs.Equivalence
import ScriptBridge.Proofs.Storing
import Mathlib.Data.List.Induction

/-!
# What a history of operations leaves

A container is built by one operation after another, some of which are refused. What it holds in the
end can be told from the operations alone: each key that was accepted, in the form and at the place
of its first occurrence, with the value that was given last.

Keys may be the same without being identical, and a lookup may ask in yet another form. That it
makes no difference which form is asked for takes symmetry and transitivity of sameness.

- `afterAll`: the state after operations, of which a refused one changes nothing.
- `DecidedByInput.afterAll_eq_foldl`, `run_eq_ok`: refused operations may be left out, and a run
  without them is the same as one that would end at the first of them.
- `firstOccurrences`: the elements that are the same as no earlier one.
- `Distinct.insertAll_eq_firstOccurrences`, `Assoc.get?_putAll`: what insertions leave.
- `Assoc.perm_of_get?_eq`: maps with the same keys and lookups have the same entries.
- `Distinct.Keeps`, `Assoc.Keeps`: all that is known of elements, and of entries, after a history.
- `Distinct.keeps_insertAll`, `Assoc.keeps_putAll`: it is so.
-/

namespace ScriptBridge

variable {α β : Type} {same : α → α → Bool} {good : α → Prop}

/-! ## Operations that may be refused -/

section

variable {σ ι ε : Type}

/-- The state after operations, of which a refused one changes nothing. -/
def afterAll (op : σ → ι → Except ε σ) (s : σ) (inputs : List ι) : σ :=
  inputs.foldl (fun s input => (op s input).toOption.getD s) s

/-- The input alone decides whether an operation is refused; if it is not, it makes a step. -/
def DecidedByInput (op : σ → ι → Except ε σ) (accepts : ι → Bool) (step : σ → ι → σ) : Prop :=
  ∀ s input, (op s input).toOption = if accepts input then some (step s input) else none

namespace DecidedByInput

variable {op : σ → ι → Except ε σ} {accepts : ι → Bool} {step : σ → ι → σ}

/-- Operations that are refused may be left out. -/
theorem afterAll_eq_foldl (h : DecidedByInput op accepts step) (s : σ) (inputs : List ι) :
    afterAll op s inputs = (inputs.filter accepts).foldl step s := by
  induction inputs generalizing s with
  | nil => rfl
  | cons input rest ih =>
    show afterAll op ((op s input).toOption.getD s) rest = _
    rw [h, ih, List.filter_cons]
    split <;> rfl

theorem afterAll_concat (h : DecidedByInput op accepts step) (s : σ) (inputs : List ι)
    (input : ι) :
    afterAll op s (inputs ++ [input]) =
      if accepts input then step (afterAll op s inputs) input else afterAll op s inputs := by
  rw [afterAll, List.foldl_append]
  show (op (afterAll op s inputs) input).toOption.getD (afterAll op s inputs) = _
  rw [h]
  split <;> rfl

end DecidedByInput

/-- A run that ends at the first refusal succeeds when no input is refused. -/
theorem run_eq_ok {run : σ → List ι → Except ε σ} {accepts : ι → Bool} {step : σ → ι → σ}
    (hnil : ∀ s, run s [] = .ok s)
    (hcons : ∀ s input rest s', run s (input :: rest) = .ok s' ↔
      accepts input = true ∧ run (step s input) rest = .ok s')
    {s s' : σ} {inputs : List ι} :
    run s inputs = .ok s' ↔
      (∀ input ∈ inputs, accepts input = true) ∧ s' = inputs.foldl step s := by
  induction inputs generalizing s with
  | nil =>
    rw [hnil, Except.ok.injEq, eq_comm]
    simp
  | cons input rest ih => rw [hcons, ih, List.forall_mem_cons, List.foldl_cons, and_assoc]

end

/-! ## First occurrences -/

/-- The elements that are the same as no earlier one, in their order. -/
def firstOccurrences (same : α → α → Bool) (items : List α) : List α :=
  (items.zipIdx.filter fun p => !(items.take p.2).any (same p.1)).map (·.1)

theorem firstOccurrences_concat (same : α → α → Bool) (items : List α) (x : α) :
    firstOccurrences same (items ++ [x]) =
      if items.any (same x) then firstOccurrences same items
      else firstOccurrences same items ++ [x] := by
  unfold firstOccurrences
  have hbefore : ∀ p ∈ items.zipIdx, (items ++ [x]).take p.2 = items.take p.2 := by
    intro p hp
    have hlt := (List.mem_zipIdx hp).2.1
    exact List.take_append_of_le_length (by omega)
  have hkept : items.zipIdx.filter (fun p => !((items ++ [x]).take p.2).any (same p.1)) =
      items.zipIdx.filter fun p => !(items.take p.2).any (same p.1) :=
    List.filter_congr fun p hp => by rw [hbefore p hp]
  rw [List.zipIdx_append, List.filter_append, hkept]
  by_cases h : items.any (same x) = true
  · simp [h]
  · simp [h]

theorem mem_of_mem_firstOccurrences {items : List α} {x : α}
    (h : x ∈ firstOccurrences same items) : x ∈ items := by
  obtain ⟨p, hp, rfl⟩ := List.mem_map.mp h
  exact List.fst_mem_of_mem_zipIdx (List.mem_of_mem_filter hp)

namespace Distinct

/-- After an insertion the elements there were and the new one are present. -/
theorem any_insert (hsame : EquivOn same good) {items : List α} {x z : α}
    (hitems : ∀ y ∈ items, good y) (hx : good x) (hz : good z) :
    (insert same items x).any (same z) = (items ++ [x]).any (same z) := by
  unfold insert
  by_cases hany : items.any (same x) = true
  · rw [if_pos hany, List.any_append, List.any_cons, List.any_nil, Bool.or_false]
    cases hzx : same z x with
    | false => rw [Bool.or_false]
    | true =>
      obtain ⟨y, hy, hxy⟩ := List.any_eq_true.mp hany
      rw [Bool.or_true]
      exact List.any_eq_true.mpr ⟨y, hy, hsame.trans hz hx (hitems y hy) hzx hxy⟩
  · rw [if_neg hany]

theorem any_insertAll (hsame : EquivOn same good) {items more : List α} {z : α}
    (hitems : ∀ y ∈ items, good y) (hmore : ∀ y ∈ more, good y) (hz : good z) :
    (insertAll same items more).any (same z) = (items ++ more).any (same z) := by
  induction more generalizing items with
  | nil => simp [insertAll]
  | cons x rest ih =>
    obtain ⟨hx, hrest⟩ := List.forall_mem_cons.mp hmore
    have hinsert : ∀ y ∈ insert same items x, good y := by
      intro y hy
      rcases List.mem_append.mp ((insertAll_sublist same items [x]).subset hy) with hy | hy
      · exact hitems y hy
      · rwa [List.mem_singleton.mp hy]
    show (insertAll same (insert same items x) rest).any (same z) = _
    rw [ih hinsert hrest, List.any_append, any_insert hsame hitems hx hz]
    simp [Bool.or_assoc]

/-- Of elements that are inserted the first occurrences stay. -/
theorem insertAll_eq_firstOccurrences (hsame : EquivOn same good) {items : List α}
    (hitems : ∀ x ∈ items, good x) : insertAll same [] items = firstOccurrences same items := by
  induction items using List.reverseRecOn with
  | nil => rfl
  | append_singleton items x ih =>
    obtain ⟨hinit, hx⟩ := List.forall_mem_append.mp hitems
    have hpresent := any_insertAll hsame (List.forall_mem_nil good) hinit (hx x (by simp))
    rw [firstOccurrences_concat, insertAll, List.foldl_append, ← ih hinit]
    show insert same (insertAll same [] items) x = _
    rw [insert, hpresent, List.nil_append]

/-- No two first occurrences are the same, whichever of them is asked for. -/
theorem firstOccurrences_apart (hsame : EquivOn same good) {items : List α}
    (hitems : ∀ x ∈ items, good x) :
    (firstOccurrences same items).Pairwise fun x y => same x y = false ∧ same y x = false := by
  rw [← insertAll_eq_firstOccurrences hsame hitems]
  have hdiffer : Differ same (insertAll same [] items) := Differ.insertAll .nil items
  have hgood : ∀ x ∈ insertAll same [] items, good x := fun x hx =>
    hitems x (by simpa using (insertAll_sublist same [] items).subset hx)
  refine hdiffer.imp_of_mem fun {x y} hx hy hne => ⟨?_, hne⟩
  rw [hsame.comm (hgood x hx) (hgood y hy)]
  exact hne

end Distinct

/-! ## Lookups -/

namespace Assoc

theorem get?_cons (same : α → α → Bool) (e : α × β) (entries : List (α × β)) (k : α) :
    get? same (e :: entries) k = if same k e.1 then some e.2 else get? same entries k := by
  unfold get?
  rw [List.find?_cons]
  cases same k e.1 <;> rfl

/-- After a pair is stored its value is found under the key, in whatever form, and nothing else has
changed. -/
theorem get?_put (hsame : EquivOn same good) {entries : List (α × β)} {key k : α} {value : β}
    (hentries : ∀ e ∈ entries, good e.1) (hkey : good key) (hk : good k) :
    get? same (put same entries key value) k =
      if same k key then some value else get? same entries k := by
  induction entries with
  | nil => rw [put, get?_cons]
  | cons e rest ih =>
    obtain ⟨he, hrest⟩ := List.forall_mem_cons.mp hentries
    rw [put]
    by_cases hsees : same key e.1 = true
    · have hcongr : same k key = same k e.1 := by
        rw [hsame.comm hk hkey, hsame.comm hk he]
        exact hsame.congr_left hkey he hk hsees
      rw [if_pos hsees, get?_cons, get?_cons, hcongr]
      split <;> rfl
    · rw [if_neg hsees, get?_cons, get?_cons, ih hrest]
      by_cases hke : same k e.1 = true
      · -- the entry in front is not the one that was stored
        have hkey' : ¬ same k key = true := fun h =>
          hsees (hsame.trans hkey hk he (hsame.symm hk hkey h) hke)
        rw [if_pos hke, if_neg hkey', if_pos hke]
      · rw [if_neg hke, if_neg hke]

/-- Where storing a pair changes what is found under its key and nothing else, of the values stored
under a key the last is found. -/
theorem get?_storeAll {clash : α → α → Bool} {put : List (α × β) → α → β → List (α × β)}
    (h : StoresByKey clash put)
    (hput : ∀ {entries key value k}, (∀ e ∈ entries, good e.1) → good key → good k →
      get? same (put entries key value) k = if same k key then some value else get? same entries k)
    {pairs : List (α × β)} {k : α} (hpairs : ∀ e ∈ pairs, good e.1) (hk : good k) :
    get? same (pairs.foldl (fun acc e => put acc e.1 e.2) []) k = get? same pairs.reverse k := by
  induction pairs using List.reverseRecOn with
  | nil => rfl
  | append_singleton pairs e ih =>
    obtain ⟨hinit, he⟩ := List.forall_mem_append.mp hpairs
    have hstored := (h.forall_storeAll_iff (p := good) (fun _ _ ha hb _ => iff_of_true ha hb)
      (List.nil_append pairs ▸ hinit)).mpr (List.nil_append pairs ▸ hinit)
    rw [List.foldl_append, List.reverse_append]
    show get? same (put _ e.1 e.2) k = get? same (e :: pairs.reverse) k
    rw [hput hstored (he e (by simp)) hk, ih hinit, get?_cons]

/-- Of the values stored under a key the last is found. -/
theorem get?_putAll (hsame : EquivOn same good) {pairs : List (α × β)} {k : α}
    (hpairs : ∀ e ∈ pairs, good e.1) (hk : good k) :
    get? same (putAll same [] pairs) k = get? same pairs.reverse k :=
  get?_storeAll (storesByKey same) (get?_put hsame) hpairs hk

/-- Where keys differ, the entries are the keys with what is found under them. -/
theorem KeysDiffer.mem_iff {entries : List (α × β)} (h : KeysDiffer same entries)
    (hself : ∀ k ∈ entries.map (·.1), same k k = true) {e : α × β} :
    e ∈ entries ↔ e.1 ∈ entries.map (·.1) ∧ get? same entries e.1 = some e.2 := by
  have hfound {e : α × β} (he : e ∈ entries) : get? same entries e.1 = some e.2 := by
    rw [get?, h.find?_self he (hself e.1 (List.mem_map_of_mem he)), Option.map_some]
  constructor
  · intro he
    exact ⟨List.mem_map_of_mem he, hfound he⟩
  · rintro ⟨hkey, hvalue⟩
    obtain ⟨e', he', hkey'⟩ := List.mem_map.mp hkey
    rw [← hkey', hfound he', Option.some.injEq] at hvalue
    rwa [← Prod.ext hkey' hvalue]

/-- Where keys differ, no entry stands twice. -/
theorem KeysDiffer.nodup {entries : List (α × β)} (h : KeysDiffer same entries)
    (hself : ∀ k ∈ entries.map (·.1), same k k = true) : entries.Nodup := by
  refine h.imp_of_mem fun {a b} ha _ hne heq => ?_
  rw [← heq, hself a.1 (List.mem_map_of_mem ha)] at hne
  cases hne

/-- Maps with the same keys, under which the same is found, have the same entries. -/
theorem perm_of_get?_eq {entries entries' : List (α × β)} (h : KeysDiffer same entries)
    (h' : KeysDiffer same entries') (hself : ∀ k ∈ entries.map (·.1), same k k = true)
    (hkeys : (entries.map (·.1)).Perm (entries'.map (·.1)))
    (hlookup : ∀ k ∈ entries.map (·.1), get? same entries k = get? same entries' k) :
    entries.Perm entries' := by
  have hself' : ∀ k ∈ entries'.map (·.1), same k k = true := fun k hk =>
    hself k (hkeys.mem_iff.mpr hk)
  refine (List.perm_ext_iff_of_nodup (h.nodup hself) (h'.nodup hself')).mpr fun e => ?_
  rw [h.mem_iff hself, h'.mem_iff hself', ← hkeys.mem_iff]
  exact and_congr_right fun hk => by rw [hlookup e.1 hk]

end Assoc

/-! ## Whole histories -/

/-- The elements that are kept of those given, of which some are accepted. -/
structure Distinct.Keeps (same : α → α → Bool) (accepts : α → Bool) (good : α → Prop)
    (given kept : List α) : Prop where
  accepted : ∀ x ∈ kept, accepts x = true
  /-- No two are the same, whichever of them is asked for. -/
  apart : kept.Pairwise fun x y => same x y = false ∧ same y x = false
  /-- Each stands in its first form, and in the order of first occurrence. -/
  order : kept = firstOccurrences same (given.filter accepts)
  /-- What was accepted is present, in whatever form it is asked for. -/
  present : ∀ x, good x → kept.any (same x) = (given.filter accepts).any (same x)

/-- The entries that are kept of those given, of which some have keys that are accepted. -/
structure Assoc.Keeps (same : α → α → Bool) (accepts : α → Bool) (good : α → Prop)
    (given kept : List (α × β)) : Prop where
  keys : Distinct.Keeps same accepts good (given.map (·.1)) (kept.map (·.1))
  /-- Under each key, in whatever form it is asked for, stands the value that was given last. -/
  last : ∀ k, good k →
    get? same kept k = get? same (given.filter fun e => accepts e.1).reverse k

theorem Distinct.keeps_insertAll (accepts : α → Bool) (hsame : EquivOn same good) {given : List α}
    (hgiven : ∀ x ∈ given, good x) :
    Keeps same accepts good given (insertAll same [] (given.filter accepts)) := by
  have hgood : ∀ x ∈ given.filter accepts, good x := fun x hx =>
    hgiven x (List.mem_of_mem_filter hx)
  have hkept : ∀ x ∈ insertAll same [] (given.filter accepts), x ∈ given.filter accepts :=
    fun x hx => by simpa using (insertAll_sublist same [] _).subset hx
  have horder := insertAll_eq_firstOccurrences hsame hgood
  refine ⟨fun x hx => (List.mem_filter.mp (hkept x hx)).2, ?_, horder, fun x hx => ?_⟩
  · rw [horder]
    exact firstOccurrences_apart hsame hgood
  · rw [any_insertAll hsame (by simp) hgood hx, List.nil_append]

theorem Assoc.keeps_putAll (accepts : α → Bool) (hsame : EquivOn same good)
    {given : List (α × β)} (hgiven : ∀ e ∈ given, good e.1) :
    Keeps same accepts good given (putAll same [] (given.filter fun e => accepts e.1)) := by
  refine ⟨?_, fun k hk => ?_⟩
  · have hkeys := Distinct.keeps_insertAll accepts hsame (List.forall_mem_map.mpr hgiven)
    rw [List.filter_map] at hkeys
    rw [keys_putAll]
    exact hkeys
  · exact get?_putAll hsame (fun e he => hgiven e (List.mem_of_mem_filter he)) hk

end ScriptBridge
