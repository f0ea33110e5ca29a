import ScriptBridge.Proofs.Decoding.Failures

/-!
# Where decoding fails

An error lists the places on the way to the failure, the outermost first. Followed from the value
that was to be decoded, they lead from part to part down to the one that its own type refuses, and
every part that is passed on the way has been converted. So whoever reads an error finds the first
failure, and an error that names the wrong place, or leaves one out, cannot occur.

- `ConvertError.places`: the way, with `ConvertError.root` at its end. `ConvertError.foldr_within`
  and `ConvertError.message_eq_foldr` put an error and its text together again.
- `Reaches`: following places through the parts that a type converts, with all parts before them
  converted.
- `Reaches.decode_eq_error`: a failure somewhere inside is one of the whole value.
- `decode_fails_at_path`: all failures are of this kind, and those of arrays are those of vectors.
-/

namespace ScriptBridge

variable {schema : Schema} {v v' : Value} {t t' : HostType} {e root : ConvertError}

namespace ConvertError

/-- The places on the way to the cause, the outermost first. -/
def places : ConvertError → List Place
  | within place cause => place :: cause.places
  | _ => []

/-- An error is its cause inside its places. -/
theorem foldr_within (e : ConvertError) : e.places.foldr within e.root = e := by
  induction e with
  | within place cause ih => exact congrArg (within place) ih
  | _ => rfl

/-- The text of an error names its places in order, and then the cause. -/
theorem message_eq_foldr (e : ConvertError) :
    e.message = e.places.foldr (fun place text => place.message ++ ": " ++ text) e.root.message := by
  induction e with
  | within place cause ih => exact congrArg (place.message ++ ": " ++ ·) ih
  | _ => rfl

end ConvertError

/-- The places lead from a value and its type to a part and its type. Each place is that of a part
that the type converts, and all parts before it are converted. -/
inductive Reaches (schema : Schema) :
    Value → HostType → List Place → Value → HostType → Prop
  | here (v : Value) (t : HostType) : Reaches schema v t [] v t
  | inside {v v' : Value} {t t' : HostType} {before after : List Visit} {c : Visit}
      {places : List Place} (hvisits : t.visits schema v = before ++ c :: after)
      (hbefore : ∀ b ∈ before, b.Converts schema) (h : Reaches schema c.value c.type places v' t') :
      Reaches schema v t (c.place :: places) v' t'

/-- What fails at the end of a way makes the whole value fail, by the same cause inside the places
of the way. -/
theorem Reaches.decode_eq_error {places : List Place} (h : Reaches schema v t places v' t')
    (hroot : decode schema v' t' = .error root) :
    decode schema v t = .error (places.foldr .within root) := by
  induction h with
  | here => exact hroot
  | inside hvisits hbefore _ ih =>
    rw [ScriptBridge.decode_eq_error, FailsBy.iff_split]
    exact .inl ⟨_, _, _, _, hvisits, hbefore, ih hroot, rfl⟩

/-- Every failure has a way to a value that is refused as a whole. -/
theorem reaches_of_decode_eq_error (h : decode schema v t = .error e) :
    ∃ v' t', Reaches schema v t e.places v' t' ∧ (∀ c ∈ t'.visits schema v', c.Converts schema) ∧
      Refused v' t' e.root ∧ decode schema v' t' = .error e.root := by
  induction e generalizing v t with
  | within place cause ih =>
    rw [decode_eq_error, FailsBy.iff_split] at h
    rcases h with ⟨before, c, after, cause', hvisits, hbefore, hcause, he⟩ | ⟨-, hrefused⟩
    · obtain ⟨rfl, rfl⟩ := ConvertError.within.inj he
      obtain ⟨v', t', hreaches, hend⟩ := ih hcause
      exact ⟨v', t', .inside hvisits hbefore hreaches, hend⟩
    · exact absurd rfl (hrefused.ne_within place cause)
  | _ =>
    -- an error without places is a refusal of the value that was to be decoded
    have hroot := h
    rw [decode_eq_error, FailsBy.iff_split] at h
    rcases h with ⟨before, c, after, cause, -, -, -, he⟩ | ⟨hall, hrefused⟩
    · cases he
    · exact ⟨v, t, .here v t, hall, hrefused, hroot⟩

/-- **The first failure.** Decoding fails with an error exactly when the places of the error lead to
a part that is refused as a whole, with the root of the error, past nothing that has not been
converted; and the text of the error names these places in order. An array fails in the same part as
a vector, whatever the number of its items, and only mismatches of the value as a whole are its
own. -/
theorem decode_fails_at_path (schema : Schema) (v : Value) (t : HostType) (e : ConvertError) :
    (decode schema v t = .error e ↔
        ∃ v' t', Reaches schema v t e.places v' t' ∧
          (∀ c ∈ t'.visits schema v', c.Converts schema) ∧ Refused v' t' e.root ∧
          decode schema v' t' = .error e.root) ∧
      e.message =
        e.places.foldr (fun place text => place.message ++ ": " ++ text) e.root.message ∧
      ∀ n item,
        (∀ e, decode schema v (.sequence .vector item) = .error e →
          decode schema v (.sequence (.array n) item) =
            .error (match e with
              | .mismatch .. => .wrongType v (.sequence (.array n) item)
              | e => e)) ∧
        ∀ x, decode schema v (.sequence .vector item) = .ok x →
          ∃ xs, x = .sequence .vector xs ∧
            decode schema v (.sequence (.array n) item) =
              if xs.length = n then .ok (.sequence (.array n) xs)
              else
                .error (.mismatch
                  ("script " ++ v.typeName ++ " of length " ++ toString xs.length)
                  ("native " ++ (HostType.sequence (.array n) item).expected)) := by
  refine ⟨⟨reaches_of_decode_eq_error, ?_⟩, e.message_eq_foldr,
    fun n item => ⟨fun _ => decode_array_of_vector_error, fun x => decode_array_of_vector⟩⟩
  rintro ⟨v', t', hreaches, -, -, hroot⟩
  have h := hreaches.decode_eq_error hroot
  rwa [e.foldr_within] at h

/-- The second record of a list fails before anybody counts that the list is too short for the
array. With nothing wrong in the records, the list itself is refused. -/
theorem decode_fails_at_path_files :
    let schema := Schema.empty.declare "File" [(.ofIdentifier "path", .string),
      (.ofIdentifier "count", .int .int64)] [] []
    let t := HostType.mapping .orderedMap .string (.sequence (.array 3) (.option (.struct "File")))
    let files (attr : String × Value) := Value.dict [(.text "a", .list
      [.record "File" [("path", .text "x"), ("note", .null)], .record "File" [attr]])]
    let wrong := files ("count", .text "y")
    let few := files ("path", .text "y")
    let failure := ConvertError.within (.entry (.text "a")) (.within (.element .list 1)
      (.within (.attr "File" "count") (.mismatch "script string" "native i64")))
    let short := ConvertError.mismatch "script list of length 2"
      "native [Option<struct File>; 3]"
    decode schema wrong t = .error failure ∧
      failure.message =
        "dict[\"a\"]: list[1]: File.count: cannot convert script string to native i64" ∧
      (∃ v' t', Reaches schema wrong t
          [.entry (.text "a"), .element .list 1, .attr "File" "count"] v' t' ∧
        Refused v' t' (.mismatch "script string" "native i64")) ∧
      decode schema few t = .error (.within (.entry (.text "a")) short) ∧
      ∃ v' t', Reaches schema few t [.entry (.text "a")] v' t' ∧ Refused v' t' short := by
  intro schema t files wrong few failure short
  have hwrong : decode schema wrong t = .error failure := rfl
  have hfew : decode schema few t = .error (.within (.entry (.text "a")) short) := by
    simp only [schema, t, files, few, short]
    rfl
  obtain ⟨v', t', hreaches, -, hrefused, -⟩ :=
    (decode_fails_at_path schema wrong t failure).1.mp hwrong
  obtain ⟨w, u, hreaches', -, hrefused', -⟩ :=
    (decode_fails_at_path schema few t _).1.mp hfew
  exact ⟨hwrong, by decide, ⟨v', t', hreaches, hrefused⟩, hfew, w, u, hreaches', hrefused'⟩

end ScriptBridge
