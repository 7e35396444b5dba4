import Interchange.Json.Tagged
import Interchange.Proofs.Json.Makes
import Interchange.Proofs.Json.Reading

/-!
# What decoders make of written values

`ReadsBack f v a p` says that of the document of `v` the decoder `f` makes `a` if `p` holds, and
nothing at all if it does not. The condition is there because more can be written than can be
read. There is one lemma for each way of putting decoders together, and the condition of the whole
is that of all its parts.
-/

namespace Interchange.Json

/-- **Reading back.** Of the document of `v` the decoder makes `a` if `p` holds, and otherwise
nothing. -/
def ReadsBack {α : Type} (f : Decoder α) (v : Value) (a : α) (p : Prop) : Prop :=
  ∀ b, f v.toDocument = .ok b ↔ p ∧ b = a

variable {α β : Type} {f : Decoder α} {v : Value} {a : α} {p q : Prop}

theorem ReadsBack.congr (h : ReadsBack f v a p) (hpq : p ↔ q) : ReadsBack f v a q :=
  fun b => (h b).trans (and_congr_left fun _ => hpq)

theorem ReadsBack.eq_ok (h : ReadsBack f v a p) (hp : p) : f v.toDocument = .ok a :=
  (h a).mpr ⟨hp, rfl⟩

theorem ReadsBack.exists_error (h : ReadsBack f v a p) (hp : ¬ p) :
    ∃ e, f v.toDocument = .error e := by
  cases hf : f v.toDocument with
  | error e => exact ⟨e, rfl⟩
  | ok b => exact absurd ((h b).mp hf).1 hp

/-- What is always read back. -/
theorem readsBack_of_eq_ok (h : f v.toDocument = .ok a) : ReadsBack f v a True := by
  intro b
  rw [h, Except.ok.injEq, true_and, eq_comm]

/-! ### Scalars -/

theorem readsBack_string (s : String) : ReadsBack decodeString (.string s) s True :=
  readsBack_of_eq_ok rfl

theorem readsBack_bool (b : Bool) : ReadsBack decodeBool (.bool b) b True :=
  readsBack_of_eq_ok rfl

theorem readsBack_count {n : Nat} (h : n < countLimit) :
    ReadsBack decodeCount (.count n) n True := by
  refine readsBack_of_eq_ok ?_
  rw [Value.count, Value.toDocument, decodeCount, if_pos (by omega), Int.toNat_natCast]

theorem readsBack_shortCount {n : Nat} (h : n < shortCountLimit) :
    ReadsBack decodeShortCount (.count n) n True := by
  refine readsBack_of_eq_ok ?_
  rw [Value.count, Value.toDocument, decodeShortCount, if_pos (by omega), Int.toNat_natCast]

theorem readsBack_shortInteger {n : Int} (h : minShort ≤ n ∧ n ≤ maxShort) :
    ReadsBack decodeShortInteger (.integer n) n True :=
  readsBack_of_eq_ok (if_pos h)

/-- A text is read back if its type reads it. -/
theorem readsBack_text {g : String → Except DecodeError α} {s : String}
    (h : ∀ b, g s = .ok b ↔ p ∧ b = a) : ReadsBack (decodeText g) (.string s) a p := h

/-! ### Compounds -/

private theorem toDocument_eq_null_iff : v.toDocument = .scalar .null ↔ v = .null := by
  cases v <;> simp [Value.toDocument]

/-- What may be missing is read back if it is there and read back; null is kept for what is
missing. -/
theorem readsBack_nullable {g : α → Value} {o : Option α} {P : α → Prop}
    (h : ∀ a ∈ o, ReadsBack f (g a) a (P a)) (hnull : ∀ a ∈ o, g a ≠ .null) :
    ReadsBack (decodeNullable f) (.nullable g o) o (∀ a ∈ o, P a) := by
  cases o with
  | none =>
    have hnone : ReadsBack (decodeNullable f) (.nullable g none) none True :=
      readsBack_of_eq_ok rfl
    exact hnone.congr (by simp)
  | some a =>
    -- what is there is not written as null, so it is not taken for missing
    have hsome : decodeNullable f (g a).toDocument = some <$> f (g a).toDocument := by
      have hne := mt toDocument_eq_null_iff.mp (hnull a rfl)
      rw [decodeNullable]
      exact fun h => hne h
    have ha := h a rfl
    intro b
    rw [Value.nullable, hsome, map_eq_ok_iff]
    constructor
    · rintro ⟨a', ha', rfl⟩
      obtain ⟨hp, rfl⟩ := (ha a').mp ha'
      exact ⟨by simpa using hp, rfl⟩
    · rintro ⟨hp, rfl⟩
      exact ⟨a, (ha a).mpr ⟨hp a rfl, rfl⟩, rfl⟩

/-- What may be absent comes back if it is not written as `null` when it is there. -/
theorem readsBack_nullable_true {g : α → Value} {o : Option α}
    (h : ∀ a ∈ o, ReadsBack f (g a) a True) (hnull : ∀ a ∈ o, g a ≠ .null) :
    ReadsBack (decodeNullable f) (.nullable g o) o True :=
  (readsBack_nullable h hnull).congr (iff_true_intro fun _ _ => trivial)

private theorem toDocuments_eq_map (vs : List Value) :
    Value.toDocuments vs = vs.map Value.toDocument := by
  induction vs with
  | nil => rfl
  | cons v vs ih => rw [Value.toDocuments, ih, List.map_cons]

theorem toMembers_eq_map (ms : List (String × Value)) :
    Value.toMembers ms = ms.map fun m => (m.1, m.2.toDocument) := by
  induction ms with
  | nil => rfl
  | cons m ms ih => rw [Value.toMembers, ih, List.map_cons]

/-- Items come back if every one of them does, and then they are the ones that were written. -/
private theorem mapM_eq_ok_iff {g : α → Value} {as bs : List α} {P : α → Prop}
    (h : ∀ a ∈ as, ReadsBack f (g a) a (P a)) :
    (as.map fun a => (g a).toDocument).mapM f = .ok bs ↔ (∀ a ∈ as, P a) ∧ bs = as := by
  induction as generalizing bs with
  | nil => simp [pure, Except.pure, eq_comm]
  | cons a as ih =>
    obtain ⟨ha, has⟩ := List.forall_mem_cons.mp h
    rw [List.map_cons, List.mapM_cons, bind_eq_ok_iff, List.forall_mem_cons]
    constructor
    · rintro ⟨b, hb, hbs⟩
      obtain ⟨bs', hbs', hcons⟩ := bind_eq_ok_iff.mp hbs
      obtain ⟨hp, rfl⟩ := (ha b).mp hb
      obtain ⟨hps, rfl⟩ := (ih has).mp hbs'
      exact ⟨⟨hp, hps⟩, (Except.ok.inj hcons).symm⟩
    · rintro ⟨⟨hp, hps⟩, rfl⟩
      exact ⟨a, ha.eq_ok hp, bind_eq_ok_iff.mpr ⟨as, (ih has).mpr ⟨hps, rfl⟩, rfl⟩⟩

/-- The items of a list are read back one by one. -/
theorem readsBack_list {g : α → Value} {as : List α} {P : α → Prop}
    (h : ∀ a ∈ as, ReadsBack f (g a) a (P a)) :
    ReadsBack (decodeList f) (.list g as) as (∀ a ∈ as, P a) := by
  intro bs
  rw [← mapM_eq_ok_iff h, Value.list, Value.toDocument, toDocuments_eq_map, List.map_map,
    decodeList, bind_eq_ok_iff]
  constructor
  · rintro ⟨as', has, hbs⟩
    obtain rfl := Except.ok.inj hbs
    exact has
  · intro hbs
    exact ⟨bs, hbs, rfl⟩

/-! ### Records -/

theorem occurrences_map_snd (name : String) (members : List (String × Document)) :
    (occurrences name members).map Prod.snd =
      (members.filter fun m => m.1 = name).map Prod.snd := by
  have hindex : ∀ k, ((members.zipIdx k).filterMap fun entry =>
      if entry.1.1 = name then some (entry.2, entry.1.2) else none).map Prod.snd =
        (members.filter fun m => m.1 = name).map Prod.snd := by
    induction members with
    | nil => exact fun _ => rfl
    | cons m members ih =>
      intro k
      rw [List.zipIdx_cons, List.filterMap_cons, List.filter_cons]
      by_cases hname : m.1 = name <;> simp [hname, ih (k + 1)]
  exact hindex 0

/-- A member whose name occurs once among those of a value is read at its place. -/
private theorem occurrences_toMembers {name : String} {ms : List (String × Value)}
    (h : ms.filter (fun m => m.1 = name) = [(name, v)]) :
    ∃ i, occurrences name (Value.toMembers ms) = [(i, v.toDocument)] := by
  have hfilter : (Value.toMembers ms).filter (fun m => m.1 = name) = [(name, v.toDocument)] := by
    rw [toMembers_eq_map, List.filter_map]
    exact congrArg (List.map _) h
  -- the indices do not matter for what there is, only for the order of faults
  have hsnd := occurrences_map_snd name (Value.toMembers ms)
  rw [hfilter] at hsnd
  obtain ⟨⟨i, d⟩, hone, rfl⟩ := List.map_eq_singleton_iff.mp hsnd
  exact ⟨i, hone⟩

private theorem fieldOf_toMembers {name : String} {ms : List (String × Value)}
    {absent : Nat → Except Fault α} (hf : ReadsBack f v a p)
    (h : ms.filter (fun m => m.1 = name) = [(name, v)]) {b : α} :
    fieldOf name f absent (Value.toMembers ms) = .ok b ↔ p ∧ b = a := by
  obtain ⟨i, hone⟩ := occurrences_toMembers h
  rw [← hf b, fieldOf, hone]
  cases h : f v.toDocument <;> simp [h]

mutual

/-- The document of a value is well formed throughout. -/
private theorem wellFormed_toDocument : ∀ v : Value, v.toDocument.wellFormed = true
  | .null | .bool _ | .integer _ | .string _ => rfl
  | .array items => itemsWellFormed_toDocuments items
  | .object members => membersWellFormed_toMembers members

private theorem itemsWellFormed_toDocuments :
    ∀ vs : List Value, Document.itemsWellFormed (Value.toDocuments vs) = true
  | [] => rfl
  | v :: vs => by
    rw [Value.toDocuments, Document.itemsWellFormed, wellFormed_toDocument v,
      itemsWellFormed_toDocuments vs, Bool.and_self]

private theorem membersWellFormed_toMembers :
    ∀ ms : List (String × Value), Document.membersWellFormed (Value.toMembers ms) = true
  | [] => rfl
  | (_, v) :: ms => by
    rw [Value.toMembers, Document.membersWellFormed, wellFormed_toDocument v,
      membersWellFormed_toMembers ms, Bool.and_self]

end

private theorem skippable_toDocument (v : Value) : skippable v.toDocument = true := by
  have hformed := wellFormed_toDocument v
  cases v <;> exact hformed

private theorem strayFault_toMembers (names : List String) (ms : List (String × Value)) :
    strayFault names (Value.toMembers ms) true = .ok () := by
  have hskip : ∀ entry ∈ (Value.toMembers ms).zipIdx,
      ¬ (!names.contains entry.1.1 && !skippable entry.1.2) = true := by
    rintro ⟨m, i⟩ hm
    have hmem := (List.mem_zipIdx' hm).2
    simp only [toMembers_eq_map] at hmem
    obtain ⟨m', -, hm'⟩ := List.mem_map.mp (hmem ▸ List.getElem_mem _)
    simp [← hm', skippable_toDocument]
  have hnone := List.filter_eq_nil_iff.mpr hskip
  simp only [strayFault, hnone]

namespace Fields

/-- **Reading back fields.** Of the members of an object the fields make `a` if `p` holds, and
otherwise nothing. -/
def ReadsBack (r : Fields α) (ms : List (String × Value)) (a : α) (p : Prop) : Prop :=
  ∀ b, r.ofMembers (Value.toMembers ms) = .ok b ↔ p ∧ b = a

variable {r : Fields α} {ms : List (String × Value)}

theorem ReadsBack.map (g : α → β) (hr : r.ReadsBack ms a p) : (g <$> r).ReadsBack ms (g a) p := by
  intro b
  refine (map_eq_ok_iff (x := r.ofMembers (Value.toMembers ms))).trans ?_
  constructor
  · rintro ⟨a', ha', rfl⟩
    obtain ⟨hp, rfl⟩ := (hr a').mp ha'
    exact ⟨hp, rfl⟩
  · rintro ⟨hp, rfl⟩
    exact ⟨a, (hr a).mpr ⟨hp, rfl⟩, rfl⟩

/-- Two fields come back if both do. -/
theorem ReadsBack.seq {fs : Fields (α → β)} {g : α → β} (hg : fs.ReadsBack ms g p)
    (hr : r.ReadsBack ms a q) : (fs <*> r).ReadsBack ms (g a) (p ∧ q) := by
  intro b
  refine (firstFault_eq_ok_iff (g := fs.ofMembers (Value.toMembers ms))).trans ?_
  constructor
  · rintro ⟨g', a', hg', ha', rfl⟩
    obtain ⟨hp, rfl⟩ := (hg g').mp hg'
    obtain ⟨hq, rfl⟩ := (hr a').mp ha'
    exact ⟨⟨hp, hq⟩, rfl⟩
  · rintro ⟨⟨hp, hq⟩, rfl⟩
    exact ⟨g, a, (hg g).mpr ⟨hp, rfl⟩, (hr a).mpr ⟨hq, rfl⟩, rfl⟩

/-- A field that has to be there comes back if it stands once under its name. -/
theorem ReadsBack.required {name : String} (hf : Json.ReadsBack f v a p)
    (h : ms.filter (fun m => m.1 = name) = [(name, v)]) :
    (Json.required name f).ReadsBack ms a p := by
  intro b
  simp only [Json.required]
  exact fieldOf_toMembers hf h

theorem ReadsBack.optional {name : String} {default : α} (hf : Json.ReadsBack f v a p)
    (h : ms.filter (fun m => m.1 = name) = [(name, v)]) :
    (Json.optional name f default).ReadsBack ms a p := by
  intro b
  simp only [Json.optional]
  exact fieldOf_toMembers hf h

/-- Among members that were written nothing is at fault but the fields themselves. -/
private theorem ofObject_toMembers (r : Fields α) (ms : List (String × Value)) :
    r.ofObject (Value.toMembers ms) true =
      (r.ofMembers (Value.toMembers ms)).mapError Fault.cause := by
  rw [Fields.ofObject, strayFault_toMembers]
  cases r.ofMembers (Value.toMembers ms) <;> rfl

/-- **Records.** A record is read back if its fields are; there is nothing else in a written
object that could be at fault. -/
theorem ReadsBack.decode (hr : r.ReadsBack ms a p) : Json.ReadsBack r.decode (.object ms) a p := by
  intro b
  rw [← hr b, ← mapError_eq_ok_iff (f := Fault.cause), ← ofObject_toMembers]
  rfl

end Fields

/-! ### Tagged records -/

theorem readable_list {g : α → Value} {as : List α} {depth : Nat}
    (h : ∀ a ∈ as, (g a).toDocument.readable depth = true) :
    (Value.list g as).toDocument.readable (depth + 1) = true := by
  rw [Value.list, Value.toDocument, Document.readable, Bool.true_and, toDocuments_eq_map]
  induction as with
  | nil => rfl
  | cons a as ih =>
    obtain ⟨ha, has⟩ := List.forall_mem_cons.mp h
    rw [List.map_cons, List.map_cons, Document.itemsReadable, ha, ih has, Bool.and_self]

/-- Members that are no tag and can be put aside stay as they are. -/
private theorem separateTag_toMembers {tag : String} {f : Decoder α} {found : Option α}
    {ms : List (String × Value)}
    (h : ∀ m ∈ ms, m.1 ≠ tag ∧ m.2.toDocument.readable asideDepth = true) :
    separateTag tag f found (Value.toMembers ms) = .ok (found, Value.toMembers ms) := by
  induction ms with
  | nil => rfl
  | cons m ms ih =>
    obtain ⟨⟨hname, hreadable⟩, hms⟩ := List.forall_mem_cons.mp h
    simp only [Value.toMembers, separateTag, if_neg hname, putAside, if_pos hreadable, bind,
      Except.bind, ih hms]
    rfl

/-- **Tagged records.** A record behind its tag is read back if the fields of its variant are. -/
theorem readsBack_tagged {tag : String} (variants : List (String × Fields α)) (name : String)
    {r : Fields α} {ms : List (String × Value)}
    (hvariant : variants.find? (·.1 = name) = some (name, r))
    (hms : ∀ m ∈ ms, m.1 ≠ tag ∧ m.2.toDocument.readable asideDepth = true)
    (hr : r.ReadsBack ms a p) :
    ReadsBack (decodeTagged tag variants) (.object ((tag, .string name) :: ms)) a p := by
  have htag : decodeTag variants (Value.string name).toDocument = .ok r := by
    rw [decodeTag, Value.toDocument, decodeString]
    simp only [bind, Except.bind, hvariant]
    rfl
  -- the tag stands in front, so the variant is known before anything is put aside
  have hseparate : separateTag tag (decodeTag variants) none
      (Value.toMembers ((tag, .string name) :: ms)) = .ok (some r, Value.toMembers ms) := by
    simp only [Value.toMembers, separateTag, if_true, htag, bind, Except.bind,
      separateTag_toMembers hms]
  have htagged : decodeTagged tag variants (Value.object ((tag, .string name) :: ms)).toDocument =
      (r.ofObject (Value.toMembers ms) true).mapError readAside := by
    simp only [decodeTagged, Value.toDocument, taggedOfObject, hseparate]
    rfl
  intro b
  rw [← hr.decode b, htagged, mapError_eq_ok_iff]
  rfl

end Interchange.Json
