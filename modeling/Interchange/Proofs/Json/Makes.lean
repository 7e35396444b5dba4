import Interchange.Json.Decoder
import Interchange.Proofs.Checks

/-!
# What decoders make

A decoder *makes* values with a property if whatever it makes has the property, from any document
at all (`Makes`). Decoders are put together from smaller ones, and so is what they make: there is
one lemma for each way of putting them together. For a record this is said of its fields, in both
of its forms (`Fields.Makes`).
-/

namespace Interchange.Json

/-- Whatever the decoder makes has the property. -/
def Makes {α : Type} (f : Decoder α) (P : α → Prop) : Prop := ∀ d a, f d = .ok a → P a

variable {α β : Type} {f : Decoder α} {P : α → Prop} {Q : β → Prop}

/-- A decoder of texts makes what its reader makes. -/
theorem Makes.text {f : String → Except DecodeError α} (h : ∀ s a, f s = .ok a → P a) :
    Makes (decodeText f) P := by
  intro d a ha
  obtain ⟨s, -, ha⟩ := bind_eq_ok_iff.mp ha
  exact h s a ha

private theorem forall_of_mapM {items : List Document} {as : List α} (hf : Makes f P)
    (h : items.mapM f = .ok as) : ∀ a ∈ as, P a := by
  induction items generalizing as with
  | nil =>
    obtain rfl := Except.ok.inj h
    exact fun a ha => absurd ha List.not_mem_nil
  | cons d items ih =>
    rw [List.mapM_cons] at h
    obtain ⟨a, ha, h⟩ := bind_eq_ok_iff.mp h
    obtain ⟨as, has, h⟩ := bind_eq_ok_iff.mp h
    obtain rfl := Except.ok.inj h
    exact List.forall_mem_cons.mpr ⟨hf d a ha, ih has⟩

/-- A list is made of what the decoder of its elements makes. -/
theorem Makes.list (hf : Makes f P) : Makes (decodeList f) fun as => ∀ a ∈ as, P a := by
  intro d as h
  cases d with
  | array items closed =>
    obtain ⟨as', has, h⟩ := bind_eq_ok_iff.mp h
    cases closed with
    | false => cases h
    | true =>
      obtain rfl := Except.ok.inj h
      exact forall_of_mapM hf has
  | _ => cases h

/-! ### Records -/

/-- Two fields that are read in turn succeed if both do. -/
theorem firstFault_eq_ok_iff {g : Except Fault (α → β)} {x : Except Fault α} {b : β} :
    firstFault g x = .ok b ↔ ∃ g' a, g = .ok g' ∧ x = .ok a ∧ g' a = b := by
  cases g with
  | ok => cases x <;> simp [firstFault]
  | error e =>
    cases x with
    | ok => simp [firstFault]
    | error e' =>
      simp only [firstFault]
      split_ifs <;> simp

namespace Fields

/-- Whatever the fields make, from members or from items, has the property. -/
structure Makes (r : Fields α) (P : α → Prop) : Prop where
  ofMembers : ∀ members a, r.ofMembers members = .ok a → P a
  ofItems : ∀ closed items a rest, r.ofItems closed items = .ok (a, rest) → P a

variable {r : Fields α}

theorem Makes.any (r : Fields α) : r.Makes fun _ => True :=
  ⟨fun _ _ _ => trivial, fun _ _ _ _ _ => trivial⟩

theorem Makes.map {g : α → β} (hr : r.Makes P) (hg : ∀ a, P a → Q (g a)) :
    (g <$> r).Makes Q where
  ofMembers members b hb := by
    cases ha : r.ofMembers members with
    | error e => simp [Functor.map, Except.map, ha] at hb
    | ok a =>
      obtain rfl : g a = b := by simpa [Functor.map, Except.map, ha] using hb
      exact hg a (hr.ofMembers members a ha)
  ofItems closed items b rest hb := by
    cases ha : r.ofItems closed items with
    | error e => simp [Functor.map, Except.map, ha] at hb
    | ok p =>
      obtain ⟨rfl, -⟩ : g p.1 = b ∧ p.2 = rest := by simpa [Functor.map, Except.map, ha] using hb
      exact hg p.1 (hr.ofItems closed items p.1 p.2 ha)

/-- A further field: what the fields before it make has to take whatever it makes to `Q`. -/
theorem Makes.seq {g : Fields (α → β)} (hg : g.Makes fun h => ∀ a, P a → Q (h a))
    (hr : r.Makes P) : (g <*> r).Makes Q where
  ofMembers members b hb := by
    obtain ⟨h, a, hh, ha, rfl⟩ := firstFault_eq_ok_iff.mp hb
    exact hg.ofMembers members h hh a (hr.ofMembers members a ha)
  ofItems closed items b rest hb := by
    obtain ⟨⟨h, items'⟩, hh, hb⟩ := bind_eq_ok_iff.mp hb
    obtain ⟨⟨a, rest'⟩, ha, hb⟩ := bind_eq_ok_iff.mp hb
    obtain ⟨rfl, -⟩ := Prod.mk.inj (Except.ok.inj hb)
    exact hg.ofItems closed items h items' hh a (hr.ofItems closed items' a rest' ha)

/-- A field that is read off the front of an array makes what its decoder makes. -/
private theorem of_ofItems_cons (hf : Json.Makes f P) {d : Document} {items rest : List Document}
    {a : α} (h : (f d).map (·, items) = .ok (a, rest)) : P a := by
  cases hd : f d with
  | error e => simp [Except.map, hd] at h
  | ok a' =>
    obtain ⟨rfl, -⟩ : a' = a ∧ items = rest := by simpa [Except.map, hd] using h
    exact hf d a' hd

theorem Makes.required (name : String) (hf : Json.Makes f P) : (required name f).Makes P where
  ofMembers members a ha := by
    obtain ⟨d, hd⟩ := exists_of_required ha
    exact hf d a hd
  ofItems closed items a rest ha := by
    cases items with
    | nil => cases ha
    | cons d items => exact of_ofItems_cons hf ha

/-- The default has to have the property as well. -/
theorem Makes.optional (name : String) {default : α} (hf : Json.Makes f P) (hdefault : P default) :
    (optional name f default).Makes P where
  ofMembers members a ha := by
    rcases eq_or_exists_of_optional ha with rfl | ⟨d, hd⟩
    · exact hdefault
    · exact hf d a hd
  ofItems closed items a rest ha := by
    cases items with
    | nil =>
      cases closed with
      | false => cases ha
      | true =>
        obtain ⟨rfl, -⟩ := Prod.mk.inj (Except.ok.inj ha)
        exact hdefault
    | cons d items => exact of_ofItems_cons hf ha

/-- Once duplicates and strangers are sorted out, an object makes what its members make. -/
private theorem Makes.ofObject (hr : r.Makes P) {members : List (String × Document)} {closed : Bool}
    {a : α} (h : r.ofObject members closed = .ok a) : P a := by
  rw [Fields.ofObject] at h
  split at h
  next a' hfault =>
    obtain rfl := Except.ok.inj h
    obtain ⟨g, a, hg, ha, rfl⟩ := firstFault_eq_ok_iff.mp hfault
    -- what is found beside the fields does not show in the value
    cases hstray : strayFault r.names members closed with
    | error e => simp [Functor.map, Except.map, hstray] at hg
    | ok u =>
      rw [hstray] at hg
      obtain rfl := Except.ok.inj hg
      exact hr.ofMembers members a ha
  next => cases h

/-- **Records.** A record is made of its fields, whichever form it has. -/
theorem Makes.decode (hr : r.Makes P) : Json.Makes r.decode P := by
  intro d a h
  cases d with
  | object members closed => exact hr.ofObject h
  | mapping members => exact hr.ofObject h
  | array items closed =>
    obtain ⟨⟨a', rest⟩, ha, h⟩ := bind_eq_ok_iff.mp h
    have ha' : P a' := hr.ofItems closed items a' rest ha
    simp only at h
    split_ifs at h
    obtain rfl := Except.ok.inj h
    exact ha'
  | _ => cases h

end Fields

end Interchange.Json
