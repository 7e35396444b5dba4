import Interchange.Server.State
import Interchange.Proofs.Json.ReadsBack
import Interchange.Proofs.Text.IdText

/-!
# What the text of an id names

Whatever the system keeps, it keeps under ids, and outside of it an id is its text. An id is read
from its own text alone (`ScopedId.parse_eq_ok_iff`), so a text never stands for two entities:

* in an object that has a member for each entity, the members of one name are what is kept under the
  id that is read from the name, so there is at most one of them (`ScopedId.occurrences_members`);
* the segment of a path stands for the text of at most one id (`Request.Names.unique`), and a
  request finds what is kept under that id and nothing else (`Server.perform_eq_ok_iff`).
-/

namespace Interchange

open Json

/-! ### Names of members -/

namespace ScopedId

variable {α : Type}

/-- Entities as members of an object, each under the text of its id. -/
def members (f : α → Value) (m : SortedMap ScopedId α) : List (String × Value) :=
  m.entries.map fun e => (e.1.text, f e.2)

/-- **Members.** A name has the member that is kept under the id that is read from it, and no
other. -/
theorem occurrences_members (f : α → Value) (m : SortedMap ScopedId α) (name : String) :
    (occurrences name (Value.toMembers (members f m))).map Prod.snd =
      ((parse name).toOption.bind m.find?).toList.map fun a => (f a).toDocument := by
  have hmembers : (occurrences name (Value.toMembers (members f m))).map Prod.snd =
      (m.entries.filter fun e => e.1.text = name).map fun e => (f e.2).toDocument := by
    rw [occurrences_map_snd, toMembers_eq_map, members, List.map_map, List.filter_map,
      List.map_map]
    rfl
  rw [hmembers]
  cases hread : parse name with
  | error e =>
    -- what is refused is the text of no id
    have hnone : m.entries.filter (fun e => e.1.text = name) = [] := by
      rw [List.filter_eq_nil_iff]
      intro e _ htext
      rw [parse_eq_ok_iff.mpr (of_decide_eq_true htext)] at hread
      cases hread
    rw [hnone]
    rfl
  | ok id =>
    obtain rfl := parse_eq_ok_iff.mp hread
    simp only [text_injective.eq_iff]
    rw [SortedMap.filter_entries_eq, List.map_map]
    rfl

end ScopedId

/-! ### Segments of paths -/

/-- The segment of the path that is the id of a trip, still encoded. -/
def Resource.tripSegment? : Resource → Option String
  | .trip segment | .tripBoarding segment => some segment
  | _ => none

namespace Request

variable {r : Request}

/-- The segment of the request's path that is the id of a trip, still encoded. -/
def tripSegment? (r : Request) : Option String :=
  (Resource.ofPath r.segments).bind Resource.tripSegment?

/-- **Naming.** The path of the request has a segment that stands for the text of the id. -/
def Names (r : Request) (id : ScopedId) : Prop :=
  r.tripSegment?.bind Percent.decode? = some id.text

/-- A request names one id at most. -/
private theorem Names.unique {id id' : ScopedId} (h : r.Names id) (h' : r.Names id') : id = id' :=
  ScopedId.text_injective (Option.some.inj (h.symm.trans h'))

end Request

/-- A command about a trip, with the text that is to be the trip's id. -/
inductive Command.AboutTrip : Command → String → Prop
  | trip {text : String} : AboutTrip (.trip text) text
  | boarding {text : String} {position : Nat} {alight : ServiceTime} :
      AboutTrip (.boarding text position alight) text

private theorem pathParameter_some_eq_ok_iff {segment text : String} :
    pathParameter some segment = .ok text ↔ Percent.decode? segment = some text := by
  rw [pathParameter]
  cases Percent.decode? segment <;> simp

/-- What is asked about a trip is asked about the one in the path. -/
private theorem Command.exists_aboutTrip {r : Request} {command : Command} {segment : String}
    (hmade : Command.ofRequest r = .ok command) (hsegment : r.tripSegment? = some segment) :
    ∃ text, command.AboutTrip text ∧ Percent.decode? segment = some text := by
  obtain ⟨resource, hpath, hresource⟩ := Option.bind_eq_some_iff.mp hsegment
  rw [Command.ofRequest, hpath] at hmade
  simp only at hmade
  split_ifs at hmade
  -- only two resources have an id in their path
  cases resource <;> simp only [Resource.tripSegment?, Option.some.injEq, reduceCtorEq] at hresource
  case trip id =>
    obtain rfl := hresource
    obtain ⟨text, htext, rfl⟩ := map_eq_ok_iff.mp hmade
    exact ⟨text, .trip, pathParameter_some_eq_ok_iff.mp htext⟩
  case tripBoarding id =>
    obtain rfl := hresource
    obtain ⟨text, htext, hmade⟩ := bind_eq_ok_iff.mp hmade
    obtain ⟨position, -, hmade⟩ := bind_eq_ok_iff.mp hmade
    obtain ⟨alight, -, hmade⟩ := bind_eq_ok_iff.mp hmade
    obtain rfl := Except.ok.inj hmade
    exact ⟨text, .boarding, pathParameter_some_eq_ok_iff.mp htext⟩

namespace Server

variable {s : Server} {clock : Clock} {text : String} {a : Answer}

/-- What a server has under the id of a trip to answer a command with. -/
inductive Finds (s : Server) (id : ScopedId) : Command → Answer → Prop
  | trip {text : String} {live : LiveTrip} (there : s.timetable.trip? id = some live) :
      Finds s id (.trip text) (.trip live)
  | boarding {text : String} {position : Nat} {alight : ServiceTime} {b : Boarding}
      (there : s.network.current.boarding ⟨id, position⟩ alight s.settings = some b) :
      Finds s id (.boarding text position alight) (.boarding b)

/-- A text is taken for the id of which it is the text. -/
theorem tripId_eq_ok_iff {id : ScopedId} : tripId text = .ok id ↔ id.text = text :=
  mapError_eq_ok_iff.trans ScopedId.parse_eq_ok_iff

/-- A live trip is found under the text of its key. -/
theorem liveTrip_eq_ok_iff {live : LiveTrip} :
    s.liveTrip text = .ok live ↔
      ∃ id : ScopedId, id.text = text ∧ s.timetable.trip? id = some live := by
  rw [liveTrip, bind_eq_ok_iff]
  refine exists_congr fun id => and_congr tripId_eq_ok_iff ?_
  cases s.timetable.trip? id with
  | none => simp [throw, throwThe, MonadExceptOf.throw]
  | some live => simp [pure, Except.pure]

/-- A boarding is found for the trip whose id the text is. -/
theorem boarding_eq_ok_iff {position : Nat} {alight : ServiceTime} {b : Boarding} :
    s.boarding text position alight = .ok b ↔ ∃ id : ScopedId, id.text = text ∧
      s.network.current.boarding ⟨id, position⟩ alight s.settings = some b := by
  rw [boarding, bind_eq_ok_iff]
  refine exists_congr fun id => and_congr tripId_eq_ok_iff ?_
  dsimp only
  cases s.network.current.boarding ⟨id, position⟩ alight s.settings with
  | none => simp [throw, throwThe, MonadExceptOf.throw]
  | some b => simp [pure, Except.pure]

/-- **Finding.** A command about a trip is answered with what is there under the id that has its
text. -/
theorem perform_eq_ok_iff {command : Command} (h : command.AboutTrip text) :
    s.perform clock command = (s, .ok a) ↔
      ∃ id : ScopedId, id.text = text ∧ s.Finds id command a := by
  cases h with
  | trip =>
    rw [perform, Prod.mk.injEq, map_eq_ok_iff]
    simp only [true_and, liveTrip_eq_ok_iff]
    constructor
    · rintro ⟨live, ⟨id, htext, hthere⟩, rfl⟩
      exact ⟨id, htext, .trip hthere⟩
    · rintro ⟨id, htext, hfinds⟩
      cases hfinds with
      | trip hthere => exact ⟨_, ⟨id, htext, hthere⟩, rfl⟩
  | boarding =>
    rw [perform, Prod.mk.injEq, map_eq_ok_iff]
    simp only [true_and, boarding_eq_ok_iff]
    constructor
    · rintro ⟨b, ⟨id, htext, hthere⟩, rfl⟩
      exact ⟨id, htext, .boarding hthere⟩
    · rintro ⟨id, htext, hfinds⟩
      cases hfinds with
      | boarding hthere => exact ⟨_, ⟨id, htext, hthere⟩, rfl⟩

/-- Of a request only the id that its path names matters. -/
private theorem perform_eq_ok_iff_names {r : Request} {command : Command} {segment : String}
    (hmade : Command.ofRequest r = .ok command) (hsegment : r.tripSegment? = some segment) :
    s.perform clock command = (s, .ok a) ↔ ∃! id, r.Names id ∧ s.Finds id command a := by
  obtain ⟨text, habout, htext⟩ := Command.exists_aboutTrip hmade hsegment
  have hnames : ∀ id : ScopedId, r.Names id ↔ id.text = text := by
    intro id
    rw [Request.Names, hsegment, Option.bind_some, htext, Option.some.injEq, eq_comm]
  simp only [perform_eq_ok_iff habout, hnames]
  constructor
  · rintro ⟨id, hid, hfinds⟩
    refine ⟨id, ⟨hid, hfinds⟩, fun id' h' => ?_⟩
    exact ScopedId.text_injective (h'.1.trans hid.symm)
  · rintro ⟨id, h, -⟩
    exact ⟨id, h⟩

end Server

/-! ### Texts as names -/

namespace ScopedId

/-- **Texts of ids.** A text is read as an id exactly if there is something in front of its first
colon and something behind it; each id is read from its own text alone. Two parts make an id exactly
if neither is empty and the feed has no colon, and that id is read back from its text. So among
entities under ids a text names at most one: as the name of a member, and in the path of a request,
which is answered with what is there under the one id that it names. -/
theorem texts_of_ids :
    (∀ s : String, (∃ id, parse s = .ok id) ↔
      ∃ i, FirstAt (· = ':') s.toList i ':' ∧ 0 < i ∧ i + 1 < s.length) ∧
    (∀ (s : String) (id : ScopedId), parse s = .ok id ↔ id.text = s) ∧
    (∀ feed localId : String, (∃ id, make feed localId = .ok id) ↔
      feed ≠ "" ∧ ':' ∉ feed.toList ∧ localId ≠ "") ∧
    (∀ (feed localId : String) (id : ScopedId), make feed localId = .ok id →
      id.feed = feed ∧ id.localId = localId ∧ parse id.text = .ok id) ∧
    Function.Injective text ∧
    (∀ (α : Type) (f : α → Value) (m : SortedMap ScopedId α) (name : String),
      (occurrences name (Value.toMembers (members f m))).map Prod.snd =
        ((parse name).toOption.bind m.find?).toList.map fun a => (f a).toDocument) ∧
    (∀ (r : Request) (id id' : ScopedId), r.Names id → r.Names id' → id = id') ∧
    ∀ (s : Server) (clock : Clock) (r : Request) (command : Command) (segment : String),
      Command.ofRequest r = .ok command → r.tripSegment? = some segment →
        ∀ a, s.perform clock command = (s, .ok a) ↔ ∃! id, r.Names id ∧ s.Finds id command a := by
  refine ⟨fun _ => exists_parse_eq_ok_iff, fun _ _ => parse_eq_ok_iff,
    fun _ _ => exists_make_eq_ok_iff, fun feed localId id hmade => ?_, text_injective,
    fun _ => occurrences_members, fun _ _ _ => Request.Names.unique,
    fun s clock r command segment hmade hsegment a => ?_⟩
  · obtain ⟨hfeed, hlocal⟩ := make_eq_ok_iff.mp hmade
    exact ⟨hfeed, hlocal, parse_text id⟩
  · exact Server.perform_eq_ok_iff_names hmade hsegment

/-- A trip whose id has a colon and a slash inside its feed is found under its encoded text. -/
theorem texts_of_ids_slash :
    let id : ScopedId := ⟨"N", "a/b:1", by decide⟩
    let trip : Trip := ⟨id, ⟨"N", "R", by decide⟩, none, none⟩
    let clock : Clock := ⟨⟨2024, 5, 1, 0, 0, 0, 0, by decide, by decide, by decide⟩, 0⟩
    let network : Network := ⟨[], ⟨[], []⟩, .ofList [], [⟨trip, []⟩], clock.wall⟩
    let s := Server.start (.default 1) network
    let r : Request := { method := .get, target := "/trips/N:a%2Fb:1" }
    make "N" "a/b:1" = .ok id ∧ parse id.text = .ok id ∧
      Command.ofRequest r = .ok (.trip id.text) ∧ r.tripSegment? = some "N:a%2Fb:1" ∧
      r.Names id ∧
      s.perform clock (.trip id.text) = (s, .ok (.trip ⟨trip, [], .scheduled⟩)) := by
  intro id trip clock network s r
  obtain ⟨-, -, -, hparts, -, -, hunique, hfinds⟩ := texts_of_ids
  have hmade : make "N" "a/b:1" = .ok id := make_parts id
  have hresource : Resource.ofPath r.segments = some (.trip "N:a%2Fb:1") := by decide
  have hpath : r.tripSegment? = some "N:a%2Fb:1" := by
    rw [Request.tripSegment?, hresource]
    rfl
  have hdecoded : Percent.decode? "N:a%2Fb:1" = some id.text := by decide +kernel
  have hcommand : Command.ofRequest r = .ok (.trip id.text) := by
    rw [Command.ofRequest, hresource]
    exact map_eq_ok_iff.mpr ⟨id.text, pathParameter_some_eq_ok_iff.mpr hdecoded, rfl⟩
  have hnames : r.Names id := by
    rw [Request.Names, hpath, Option.bind_some, hdecoded]
  have hlive : s.timetable.trip? id = some ⟨trip, [], .scheduled⟩ := by decide
  refine ⟨hmade, (hparts _ _ id hmade).2.2, hcommand, hpath, hnames, ?_⟩
  refine (hfinds s clock r _ _ hcommand hpath _).mpr ⟨id, ⟨hnames, .trip hlive⟩, ?_⟩
  exact fun id' h' => hunique r id' id h'.1 hnames

end ScopedId

end Interchange
