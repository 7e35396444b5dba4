import Interchange.Proofs.Checks
import Interchange.Proofs.Json.Reading
import Interchange.Proofs.Server.Alone

/-!
# Requests that fail

A request that fails leaves the server as it was, as long as the dispatcher runs. What can come of
a request is said once (`Server.Answers`): only a network that has been read and built replaces the
one that is published, and only a batch that has been read completely gets to the dispatcher. The
state after any number of requests is therefore that after those of them that do not fail
(`Server.respondAll_succeeding`).
-/

namespace Interchange

open Json

/-! ### Statuses -/

/-- A refusal has the status of an error. -/
theorem Refusal.le_status (r : Refusal) : 400 ≤ r.response.status := by
  cases r <;> decide

theorem Failure.le_status (f : Failure) : 400 ≤ f.response.status := by
  cases f <;> simp [response, status]

/-! ### What requests ask for -/

namespace Request

/-- The request is to replace the network. -/
def PutsNetwork (r : Request) : Prop :=
  Resource.ofPath r.segments = some .network ∧ r.method = .put

/-- The request is to apply a batch of updates. -/
def PostsUpdates (r : Request) : Prop :=
  Resource.ofPath r.segments = some .updates ∧ r.method = .post

variable {r : Request}

private theorem PutsNetwork.ofRequest (h : r.PutsNetwork) :
    Command.ofRequest r = .replaceNetwork <$> readBody Description.ofJson r := by
  simp only [Command.ofRequest, h.1, h.2, Resource.allows, decide_true, if_true, Resource.command]

private theorem PostsUpdates.ofRequest (h : r.PostsUpdates) :
    Command.ofRequest r = .update <$> readBody (decodeList Mutation.ofJson) r := by
  simp only [Command.ofRequest, h.1, h.2, Resource.allows, decide_true, if_true, Resource.command]

/-- A command comes from a resource that has the method. -/
private theorem exists_resource_of_ofRequest {command : Command}
    (h : Command.ofRequest r = .ok command) :
    ∃ resource : Resource, resource.allows r.method = true ∧ resource.command r = .ok command := by
  rw [Command.ofRequest] at h
  split at h
  · cases h
  next resource hpath =>
    split_ifs at h with hallows
    exact ⟨resource, hallows, h⟩

/-- What is put is a network. -/
private theorem exists_eq_replaceNetwork_of_put {command : Command} (hmethod : r.method = .put)
    (h : Command.ofRequest r = .ok command) : ∃ d, command = .replaceNetwork d := by
  obtain ⟨resource, hallows, hcommand⟩ := exists_resource_of_ofRequest h
  cases resource <;> simp [Resource.allows, hmethod] at hallows
  obtain ⟨d, -, hd⟩ := map_eq_ok_iff.mp hcommand
  exact ⟨d, hd.symm⟩

/-- What is posted are updates. -/
private theorem exists_eq_update_of_post {command : Command} (hmethod : r.method = .post)
    (h : Command.ofRequest r = .ok command) : ∃ batch, command = .update batch := by
  obtain ⟨resource, hallows, hcommand⟩ := exists_resource_of_ofRequest h
  cases resource <;> simp [Resource.allows, hmethod] at hallows
  obtain ⟨batch, -, hbatch⟩ := map_eq_ok_iff.mp hcommand
  exact ⟨batch, hbatch.symm⟩

end Request

/-! ### What comes of requests -/

namespace Server

variable {s : Server} {clock : Clock} {r : Request}

/-- **What can come of a request** while the dispatcher runs: the state and the answer. -/
inductive Answers (s : Server) (clock : Clock) (r : Request) : Server × Response → Prop
  /-- The request makes no command -/
  | refused {refusal : Refusal} (made : Command.ofRequest r = .error refusal) :
      Answers s clock r (s, refusal.response)
  /-- What the command needs is not there, or the network cannot be built -/
  | failed {command : Command} {f : Failure} (made : Command.ofRequest r = .ok command)
      (performed : s.perform clock command = (s, .error f)) :
      Answers s clock r (s, f.response)
  /-- The command only reads -/
  | read {command : Command} {a : Answer} (made : Command.ofRequest r = .ok command)
      (performed : s.perform clock command = (s, .ok a))
      (reads : ∀ d, command ≠ .replaceNetwork d) (reads' : ∀ batch, command ≠ .update batch) :
      Answers s clock r (s, ⟨200, a.body⟩)
  | replaced {d : Description} {network : Network}
      (made : Command.ofRequest r = .ok (.replaceNetwork d))
      (built : Network.build d s.settings clock.wall = .ok network) :
      Answers s clock r
        ({ s with
            network := (s.network.replace network).1
            dispatcher := s.dispatcher.reset network.timetable },
          ⟨200, .json network.summary.toJson⟩)
  | updated {batch : List Mutation} (made : Command.ofRequest r = .ok (.update batch)) :
      Answers s clock r
        ({ s with dispatcher := (s.dispatcher.applyBatch batch clock.unix).1 },
          ⟨200, .json (s.dispatcher.applyBatch batch clock.unix).2.toJson⟩)

/-- A command that only reads fails, or has an answer, in the state in which it is carried out. -/
private theorem answers_of_read {command : Command} {answer : Except Failure Answer}
    (made : Command.ofRequest r = .ok command) (performed : s.perform clock command = (s, answer))
    (reads : ∀ d, command ≠ .replaceNetwork d) (reads' : ∀ batch, command ≠ .update batch) :
    Answers s clock r (s, .ofAnswer answer) := by
  cases answer with
  | error f => exact .failed made performed
  | ok a => exact .read made performed reads reads'

/-- A network that has been built is published, and then its timetable. -/
private theorem perform_replaceNetwork_of_ok (h : s.dispatching = true) {d : Description}
    {network : Network} (hbuilt : Network.build d s.settings clock.wall = .ok network) :
    s.perform clock (.replaceNetwork d) =
      ({ s with
          network := (s.network.replace network).1
          dispatcher := s.dispatcher.reset network.timetable },
        .ok (.replaced network.summary)) := by
  simp only [perform, replaceNetwork, hbuilt, dispatch, h, if_true]
  rfl

/-- A network that cannot be built leaves the server as it is. -/
private theorem perform_replaceNetwork_of_error {d : Description} {e : NetworkError}
    (hbuild : Network.build d s.settings clock.wall = .error e) :
    s.perform clock (.replaceNetwork d) = (s, .error (.network e)) := by
  simp only [perform, replaceNetwork, hbuild]
  rfl

private theorem perform_update (h : s.dispatching = true) (batch : List Mutation) :
    s.perform clock (.update batch) =
      ({ s with dispatcher := (s.dispatcher.applyBatch batch clock.unix).1 },
        .ok (.batch (s.dispatcher.applyBatch batch clock.unix).2)) := by
  simp only [perform, update, dispatch, h, if_true]
  rfl

/-- Every request is answered in one of the listed ways. -/
theorem answers_answer (h : s.dispatching = true) (clock : Clock) (r : Request) :
    Answers s clock r (s.answer clock r) := by
  rw [answer]
  cases hmade : Command.ofRequest r with
  | error refusal => exact .refused hmade
  | ok command =>
    cases command with
    | replaceNetwork d =>
      cases hbuild : Network.build d s.settings clock.wall with
      | error e =>
        have hperform := perform_replaceNetwork_of_error hbuild
        simp only [hperform]
        exact .failed hmade hperform
      | ok network =>
        -- the network is published before the dispatcher is asked, so this fails without it
        simp only [perform_replaceNetwork_of_ok h hbuild]
        exact .replaced hmade hbuild
    | update batch =>
      simp only [perform_update h batch]
      exact .updated hmade
    | health | summary | transfers | trip | boarding | latestUpdate =>
      exact answers_of_read hmade rfl (by rintro _ ⟨⟩) (by rintro _ ⟨⟩)

/-! ### Answers -/

/-- Cutting off the body of an answer leaves its status. -/
theorem status_respond (s : Server) (clock : Clock) (r : Request) :
    (s.respond clock r).2.status = (s.answer clock r).2.status := by
  rw [respond]
  split_ifs <;> rfl

/-- Only answers to `head` are cut short. -/
private theorem respond_eq_answer (h : r.method ≠ .head) :
    s.respond clock r = s.answer clock r := by
  simp only [respond, if_neg h]

/-- The dispatcher goes on running. -/
theorem dispatching_respond (h : s.dispatching = true) (clock : Clock) (r : Request) :
    (s.respond clock r).1.dispatching = true := by
  have hanswers := answers_answer h clock r
  change (s.answer clock r).1.dispatching = true
  generalize s.answer clock r = answer at hanswers
  cases hanswers <;> exact h

/-- An answer with the status of an error has changed nothing. -/
theorem eq_of_le_status (h : s.dispatching = true)
    (hstatus : 400 ≤ (s.respond clock r).2.status) : (s.respond clock r).1 = s := by
  have hanswers := answers_answer h clock r
  -- an answer to `head` has the status of the full answer
  rw [status_respond] at hstatus
  change (s.answer clock r).1 = s
  generalize s.answer clock r = answer at hanswers hstatus
  cases hanswers with
  | refused | failed | read => rfl
  | replaced | updated => simp at hstatus

/-- The request fails and leaves the server as it was. -/
def Fails (s : Server) (clock : Clock) (r : Request) : Prop :=
  400 ≤ (s.respond clock r).2.status ∧ (s.respond clock r).1 = s

private theorem fails_of_ofRequest {refusal : Refusal} (h : Command.ofRequest r = .error refusal) :
    s.Fails clock r := by
  have hanswer : s.answer clock r = (s, refusal.response) := by
    simp only [answer, h]
  refine ⟨?_, congrArg Prod.fst hanswer⟩
  rw [status_respond, hanswer]
  exact refusal.le_status

private theorem fails_of_build {d : Description} {e : NetworkError}
    (h : Command.ofRequest r = .ok (.replaceNetwork d))
    (hbuild : Network.build d s.settings clock.wall = .error e) : s.Fails clock r := by
  have hanswer : s.answer clock r = (s, (Failure.network e).response) := by
    simp only [answer, h, perform_replaceNetwork_of_error hbuild]
    rfl
  refine ⟨?_, congrArg Prod.fst hanswer⟩
  rw [status_respond, hanswer]
  exact (Failure.network e).le_status

private theorem fails_of_unreadBatch {refusal : Refusal} (hpost : r.PostsUpdates)
    (hread : readBody (decodeList Mutation.ofJson) r = .error refusal) : s.Fails clock r := by
  have hmade : Command.ofRequest r = .error refusal := by
    rw [hpost.ofRequest, hread]
    rfl
  exact fails_of_ofRequest hmade

/-- A batch cannot be read if one of its mutations cannot, wherever it stands. -/
private theorem exists_readBody_eq_error {items : List Document} {closed : Bool} {d : Document}
    {e : DecodeError} (hbody : Document.ofText r.body = .array items closed) (hd : d ∈ items)
    (he : Mutation.ofJson d = .error e) :
    ∃ refusal, readBody (decodeList Mutation.ofJson) r = .error refusal := by
  rw [readBody]
  split_ifs
  · exact ⟨_, rfl⟩
  · exact ⟨_, rfl⟩
  cases hread : decodeList Mutation.ofJson (Document.ofText r.body) with
  | error e' => cases e' <;> exact ⟨_, rfl⟩
  | ok batch =>
    rw [hbody] at hread
    obtain ⟨ms, hms, -⟩ := bind_eq_ok_iff.mp hread
    obtain ⟨m, hm⟩ := exists_eq_ok_of_mapM hms hd
    rw [he] at hm
    cases hm

/-- **All or nothing.** How the state after a request depends on its answer. -/
structure Transactional (s : Server) (clock : Clock) (r : Request) : Prop where
  /-- A request that fails changes nothing -/
  failed : 400 ≤ (s.respond clock r).2.status → (s.respond clock r).1 = s
  /-- A network that cannot be read is not put in place -/
  unreadNetwork : r.PutsNetwork → ∀ refusal, readBody Description.ofJson r = .error refusal →
    s.Fails clock r
  /-- Nor is one that cannot be built -/
  unbuiltNetwork : r.PutsNetwork → ∀ d e, readBody Description.ofJson r = .ok d →
    Network.build d s.settings clock.wall = .error e → s.Fails clock r
  /-- Nothing is applied of a batch that cannot be read -/
  unreadBatch : r.PostsUpdates → ∀ refusal,
    readBody (decodeList Mutation.ofJson) r = .error refusal → s.Fails clock r
  /-- It cannot be read if one of its mutations cannot, wherever that stands -/
  unreadMutation : r.PostsUpdates → ∀ items closed,
    Document.ofText r.body = .array items closed →
      (∃ d ∈ items, ∃ e, Mutation.ofJson d = .error e) → s.Fails clock r
  /-- A batch that can be read is answered with its result, whichever of its mutations fail -/
  batch : r.PostsUpdates → ∀ batch, readBody (decodeList Mutation.ofJson) r = .ok batch →
    (s.respond clock r).2 = ⟨200, .json (s.timetable.applyBatch batch clock.unix).2.toJson⟩
  /-- The answer to a batch is the latest result from then on, and the network stays -/
  posted : r.method = .post → (s.respond clock r).2.status = 200 →
    (s.respond clock r).1.network = s.network ∧
      ∃ result, (s.respond clock r).1.dispatcher.latest = some result ∧
        (s.respond clock r).2.body = .json result.toJson
  /-- A new network does not change the latest result -/
  put : r.method = .put → (s.respond clock r).2.status = 200 →
    (s.respond clock r).1.dispatcher.latest = s.dispatcher.latest

/-- Only an applied batch answers what is posted with success. -/
private theorem exists_answer_eq_of_post (h : s.dispatching = true) (hpost : r.method = .post)
    (hstatus : (s.answer clock r).2.status = 200) :
    ∃ batch, s.answer clock r =
      ({ s with dispatcher := (s.dispatcher.applyBatch batch clock.unix).1 },
        ⟨200, .json (s.dispatcher.applyBatch batch clock.unix).2.toJson⟩) := by
  have hanswers := answers_answer h clock r
  generalize s.answer clock r = answer at hanswers hstatus
  -- refusals and failures have a status of at least 400, and what is posted is a batch
  cases hanswers with
  | @refused refusal =>
    have hle := refusal.le_status
    simp only at hstatus
    omega
  | @failed _ f =>
    have hle := f.le_status
    simp only at hstatus
    omega
  | read made _ _ hreads =>
    obtain ⟨batch, hbatch⟩ := Request.exists_eq_update_of_post hpost made
    exact absurd hbatch (hreads batch)
  | replaced made =>
    obtain ⟨batch, hbatch⟩ := Request.exists_eq_update_of_post hpost made
    cases hbatch
  | @updated batch => exact ⟨batch, rfl⟩

/-- Whatever comes of what is put, no batch is applied. -/
private theorem latest_answer_of_put (h : s.dispatching = true) (hput : r.method = .put) :
    (s.answer clock r).1.dispatcher.latest = s.dispatcher.latest := by
  have hanswers := answers_answer h clock r
  generalize s.answer clock r = answer at hanswers
  cases hanswers with
  | refused | failed | read | replaced => rfl
  | updated made =>
    obtain ⟨d, hd⟩ := Request.exists_eq_replaceNetwork_of_put hput made
    cases hd

/-- **Failing requests leave no trace.** As long as the dispatcher runs, a request takes effect
completely or not at all. -/
theorem transactional (h : s.dispatching = true) (clock : Clock) (r : Request) :
    s.Transactional clock r where
  failed := eq_of_le_status h
  unreadNetwork hput refusal hread := by
    have hmade : Command.ofRequest r = .error refusal := by
      rw [hput.ofRequest, hread]
      rfl
    exact fails_of_ofRequest hmade
  unbuiltNetwork hput d e hread hbuild := by
    have hmade : Command.ofRequest r = .ok (.replaceNetwork d) := by
      rw [hput.ofRequest, hread]
      rfl
    exact fails_of_build hmade hbuild
  unreadBatch hpost refusal hread := fails_of_unreadBatch hpost hread
  unreadMutation hpost items closed hbody := by
    rintro ⟨d, hd, e, he⟩
    obtain ⟨refusal, hread⟩ := exists_readBody_eq_error hbody hd he
    exact fails_of_unreadBatch hpost hread
  batch hpost batch hread := by
    have hmade : Command.ofRequest r = .ok (.update batch) := by
      rw [hpost.ofRequest, hread]
      rfl
    have hhead : r.method ≠ .head := by simp [hpost.2]
    rw [respond_eq_answer hhead, answer, hmade]
    simp only [perform_update h batch]
    rfl
  posted hpost hstatus := by
    rw [status_respond] at hstatus
    obtain ⟨batch, hanswer⟩ := exists_answer_eq_of_post h hpost hstatus
    have hhead : r.method ≠ .head := by simp [hpost]
    rw [respond_eq_answer hhead, hanswer]
    exact ⟨rfl, _, rfl, rfl⟩
  put hput _ := latest_answer_of_put h hput

/-! #### A server at work -/

/-- A request whose body is the text of a value. -/
def sending (method : Method) (target : String) (v : Value) : Request :=
  ⟨method, target, some "application/json", v.text⟩

/-- Such a body is read as the value. -/
private theorem readBody_sending {α : Type} {f : Decoder α} {method : Method} {target : String}
    {v : Value} (hwidth : v.InWidth) (hsize : v.text.utf8ByteSize ≤ bodyLimit) :
    readBody f (sending method target v) = (f v.toDocument).mapError fun
      | .malformed => .malformedBody
      | _ => .unacceptableBody := by
  have hjson : (sending method target v).hasJsonBody = true := by
    change (Request.mk .post "" (some "application/json") "").hasJsonBody = true
    decide
  have hsmall : ¬ bodyLimit < (sending method target v).body.utf8ByteSize := Nat.not_lt.mpr hsize
  have hbody : Document.ofText (sending method target v).body = v.toDocument := ofText_text hwidth
  simp only [readBody, hjson, Bool.not_true, Bool.false_eq_true, if_false, if_neg hsmall, hbody]
  cases f v.toDocument with
  | ok a => rfl
  | error e => cases e <;> rfl

/-- A description with footpaths at a stop that there is not. -/
def tooManyFootpaths : Value := .object [("transfers", .array [.array []])]

/-- A mutation of a trip that there is not. -/
def strayMutation : Mutation := .cancel ⟨"N", "stray", by decide⟩

/-- A bare server keeps its network when there is something wrong with another one, applies nothing
of a batch of which it cannot read the second mutation, and answers a batch that fails as a whole
with its result. -/
theorem transactional_bareServer :
    let clock : Clock := ⟨⟨2024, 5, 1, 0, 0, 0, 0, by decide, by decide, by decide⟩, 0⟩
    ∃ network, Network.build {} (.default 1) clock.wall = .ok network ∧
      let s := start (.default 1) network
      s.Fails clock (sending .put "/network" tooManyFootpaths) ∧
      s.Fails clock (sending .post "/updates" (.array [strayMutation.toJson, .null])) ∧
      (s.respond clock (sending .post "/updates" (.list Mutation.toJson [strayMutation]))).2 =
        ⟨200, .json (s.timetable.applyBatch [strayMutation] 0).2.toJson⟩ := by
  intro clock
  obtain ⟨network, hnetwork⟩ : ∃ network, Network.build {} (.default 1) clock.wall = .ok network :=
    ⟨_, rfl⟩
  have hput : (sending .put "/network" tooManyFootpaths).PutsNetwork := ⟨by decide, rfl⟩
  have hpost : ∀ v, (sending .post "/updates" v).PostsUpdates := by
    intro v
    refine ⟨?_, rfl⟩
    simp only [Request.segments, Request.resource, sending]
    decide
  refine ⟨network, hnetwork, ?_, ?_, ?_⟩
  · refine (transactional rfl clock _).unbuiltNetwork hput { footpaths := [[]] } _ ?_ rfl
    rw [readBody_sending (v := tooManyFootpaths) ⟨⟨trivial, trivial⟩, trivial⟩ (by decide)]
    rfl
  · have hbody := ofText_text (v := .array [strayMutation.toJson, .null])
      ⟨⟨trivial, trivial, trivial⟩, trivial, trivial⟩
    refine (transactional rfl clock _).unreadMutation (hpost _) _ true hbody ?_
    exact ⟨_, List.mem_cons_of_mem _ List.mem_cons_self, _, rfl⟩
  · refine (transactional rfl clock _).batch (hpost _) [strayMutation] ?_
    rw [readBody_sending (v := .list Mutation.toJson [strayMutation])
      ⟨⟨trivial, trivial, trivial⟩, trivial⟩ (by decide)]
    rfl

/-! ### Requests one after the other -/

/-- Those of the requests that do not fail when all are answered one after the other. -/
def succeeding (s : Server) : List (Clock × Request) → List (Clock × Request)
  | [] => []
  | (clock, r) :: requests =>
    let rest := (s.respond clock r).1.succeeding requests
    if 400 ≤ (s.respond clock r).2.status then rest else (clock, r) :: rest

/-- The requests that do not fail keep their order. -/
theorem succeeding_sublist (s : Server) (requests : List (Clock × Request)) :
    (s.succeeding requests).Sublist requests := by
  induction requests generalizing s with
  | nil => exact .refl []
  | cons request requests ih =>
    rw [succeeding]
    split_ifs
    · exact (ih _).cons _
    · exact (ih _).cons_cons _

/-- The dispatcher runs in every state that requests lead to, if it runs at first. -/
theorem dispatching_respondAll (h : s.dispatching = true) (requests : List (Clock × Request)) :
    (s.respondAll requests).dispatching = true := by
  induction requests generalizing s with
  | nil => exact h
  | cons request requests ih => exact ih (dispatching_respond h request.1 request.2)

/-- **Leaving out failures.** Without the requests that fail, the others, in the order in which they
come, lead to the same state. -/
theorem respondAll_succeeding (h : s.dispatching = true) (requests : List (Clock × Request)) :
    (s.succeeding requests).Sublist requests ∧
      s.respondAll (s.succeeding requests) = s.respondAll requests := by
  refine ⟨succeeding_sublist s requests, ?_⟩
  induction requests generalizing s with
  | nil => rfl
  | cons request requests ih =>
    have hrest := ih (dispatching_respond h request.1 request.2)
    rw [succeeding]
    split_ifs with hstatus
    · -- the others find the server as it was before the failing request
      have hsame := eq_of_le_status h hstatus
      rw [hsame] at hrest ⊢
      rw [hrest, respondAll, respondAll, List.foldl_cons, hsame]
    · exact hrest

end Server

end Interchange
