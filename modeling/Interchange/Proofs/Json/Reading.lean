import Interchange.Json.Decoder
import Interchange.Proofs.Json.Lexing

/-!
# Written values are read back

The document that is read from the text of a value is the one that the value stands for
(`ofWholeText_text`). The reader keeps a stack of frames; behind a value it goes on with the frame
around it (`resume`), so what is said of a value is said inside any frames, and of a list of items
or members inside the frame that holds those before them.
-/

namespace Interchange.Json

/-- Goes on behind a document, inside the given frames. -/
def resume (d : Document) : List Frame → List Token → Document × List Token
  | [], ts => (d, ts)
  | frame :: frames, ts => Document.readOn (frame.fill d :: frames) .separator ts

/-- Where a value may come next. -/
def AwaitsValue (e : Expectation) : Prop := e = .value ∨ e = .firstItem

private theorem readOn_scalar {e : Expectation} (he : AwaitsValue e) (frames : List Frame)
    (s : Scalar) (ts : List Token) :
    Document.readOn frames e (.scalar s :: ts) = resume (.scalar s) frames ts := by
  rcases he with rfl | rfl <;> cases frames <;> rfl

private theorem readOn_openBracket {e : Expectation} (he : AwaitsValue e) (frames : List Frame)
    (ts : List Token) :
    Document.readOn frames e (.openBracket :: ts) =
      Document.readOn (.array [] :: frames) .firstItem ts := by
  rcases he with rfl | rfl <;> rfl

private theorem readOn_openBrace {e : Expectation} (he : AwaitsValue e) (frames : List Frame)
    (ts : List Token) :
    Document.readOn frames e (.openBrace :: ts) =
      Document.readOn (.object [] :: frames) .firstName ts := by
  rcases he with rfl | rfl <;> rfl

private theorem readOn_closeBracket {e : Expectation} (he : e = .firstItem ∨ e = .separator)
    (items : List Document) (frames : List Frame) (ts : List Token) :
    Document.readOn (.array items :: frames) e (.closeBracket :: ts) =
      resume (.array items.reverse true) frames ts := by
  rcases he with rfl | rfl <;> cases frames <;> rfl

private theorem readOn_closeBrace {e : Expectation} (he : e = .firstName ∨ e = .separator)
    (members : List (String × Document)) (frames : List Frame) (ts : List Token) :
    Document.readOn (.object members :: frames) e (.closeBrace :: ts) =
      resume (.object members.reverse true) frames ts := by
  rcases he with rfl | rfl <;> cases frames <;> rfl

private theorem readOn_name {e : Expectation} (he : e = .firstName ∨ e = .name)
    (members : List (String × Document)) (name : String) (frames : List Frame) (ts : List Token) :
    Document.readOn (.object members :: frames) e (.scalar (.string name) :: .colon :: ts) =
      Document.readOn (.member members (some name) :: frames) .value ts := by
  rcases he with rfl | rfl <;> rfl

mutual

/-- **Reading a value.** Its tokens are read into its document, inside any frames. -/
theorem readOn_tokens : ∀ (v : Value) (frames : List Frame) (e : Expectation) (ts : List Token),
    AwaitsValue e → Document.readOn frames e (v.tokens ++ ts) = resume v.toDocument frames ts
  | .null, frames, _, ts, he => readOn_scalar he frames .null ts
  | .bool b, frames, _, ts, he => readOn_scalar he frames (.bool b) ts
  | .integer n, frames, _, ts, he => readOn_scalar he frames (.number (.integer n)) ts
  | .string s, frames, _, ts, he => readOn_scalar he frames (.string s) ts
  | .array [], frames, _, ts, he =>
    (readOn_openBracket he frames _).trans (readOn_closeBracket (.inl rfl) [] frames ts)
  | .array (v :: vs), frames, _, ts, he => by
    rw [Value.tokens, List.cons_append, List.append_assoc, readOn_openBracket he,
      readOn_tokens v _ _ _ (.inr rfl)]
    exact readOn_itemTokens vs [v.toDocument] frames ts
  | .object [], frames, _, ts, he =>
    (readOn_openBrace he frames _).trans (readOn_closeBrace (.inl rfl) [] frames ts)
  | .object ((k, v) :: ms), frames, _, ts, he => by
    rw [Value.tokens, List.cons_append, List.cons_append, List.cons_append, List.append_assoc,
      readOn_openBrace he, readOn_name (.inl rfl), readOn_tokens v _ _ _ (.inl rfl)]
    exact readOn_memberTokens ms [(k, v.toDocument)] frames ts

/-- The rest of an array is read up to its bracket. -/
private theorem readOn_itemTokens : ∀ (vs : List Value) (items : List Document)
    (frames : List Frame) (ts : List Token),
    Document.readOn (.array items :: frames) .separator (Value.itemTokens vs ++ ts) =
      resume (.array (items.reverse ++ Value.toDocuments vs) true) frames ts
  | [], items, frames, ts => by
    rw [Value.toDocuments, List.append_nil]
    exact readOn_closeBracket (.inr rfl) items frames ts
  | v :: vs, items, frames, ts => by
    rw [Value.itemTokens, List.cons_append, List.append_assoc]
    refine (readOn_tokens v (.array items :: frames) .value _ (.inl rfl)).trans ?_
    refine (readOn_itemTokens vs (v.toDocument :: items) frames ts).trans ?_
    rw [List.reverse_cons, List.append_assoc]
    rfl

/-- The rest of an object is read up to its brace. -/
private theorem readOn_memberTokens : ∀ (ms : List (String × Value))
    (members : List (String × Document)) (frames : List Frame) (ts : List Token),
    Document.readOn (.object members :: frames) .separator (Value.memberTokens ms ++ ts) =
      resume (.object (members.reverse ++ Value.toMembers ms) true) frames ts
  | [], members, frames, ts => by
    rw [Value.toMembers, List.append_nil]
    exact readOn_closeBrace (.inr rfl) members frames ts
  | (k, v) :: ms, members, frames, ts => by
    rw [Value.memberTokens, List.cons_append, List.cons_append, List.cons_append,
      List.append_assoc]
    refine (readOn_name (.inr rfl) members k frames _).trans ?_
    refine (readOn_tokens v (.member members (some k) :: frames) .value _ (.inl rfl)).trans ?_
    refine (readOn_memberTokens ms ((k, v.toDocument) :: members) frames ts).trans ?_
    rw [List.reverse_cons, List.append_assoc]
    rfl

end

/-! ### Whole texts -/

private theorem ofTokens_tokens_text {v : Value} (h : v.InWidth) :
    Document.ofTokens (tokens v.text.toList) = (v.toDocument, []) := by
  have hend : EndsNumber [] := fun c hc => nomatch hc
  have htokens := tokens_render v [] h hend
  have hnil : tokens [] = [] := by rw [tokens]
  rw [List.append_nil, hnil] at htokens
  rw [Value.text, String.toList_ofList, htokens]
  exact readOn_tokens v [] .value [] (.inl rfl)

/-- A text that has been written is read as the document that was written. -/
theorem ofText_text {v : Value} (h : v.InWidth) : Document.ofText v.text = v.toDocument := by
  rw [Document.ofText, ofTokens_tokens_text h]

/-- **Documents of written values.** The text of a value is read into the document that the value
stands for, and nothing is left. -/
theorem ofWholeText_text {v : Value} (h : v.InWidth) :
    Document.ofWholeText v.text = (v.toDocument, true) := by
  rw [Document.ofWholeText, ofTokens_tokens_text h]
  rfl

/-- So a decoder makes of the text what it makes of the document. -/
theorem decodeWholeText_text {α : Type} (f : Decoder α) {v : Value} (h : v.InWidth) :
    decodeWholeText f v.text = f v.toDocument := by
  simp only [decodeWholeText, ofWholeText_text h]
  cases f v.toDocument <;> rfl

end Interchange.Json
